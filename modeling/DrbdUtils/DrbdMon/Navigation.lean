import Mathlib.Algebra.Group.Nat.Defs
import Mathlib.Data.Nat.Basic
import Mathlib.Order.Lattice
import Mathlib.Data.List.TakeWhile

/-!
# drbdmon's page navigation

`terminal/navigation.h`: the first item of a page, and the first item of the page that has the cursor,
each over a whole list and over the items that a filter selects.

* `lastFirst` — the first item of the last page of a list.
* `findFirstFilteredItemOnPage_eq`, `findFirstFilteredItemOnCursorPage_eq` — what the loops compute.
* `navigation_agrees_iff` — when the functions agree with and without a filter.
-/

set_option autoImplicit false

namespace DrbdUtils.DrbdMon.Navigation

/-! ## Model -/

/-- A `uint32_t`. -/
def u32 (n : Nat) : Nat := n % 2 ^ 32

/-- The index of the first line of a page, plus an offset. -/
def searchItemIdx (pageNr lineOffset linesPerPage : Nat) : Nat :=
  u32 (u32 ((max pageNr 1 - 1) * linesPerPage) + lineOffset)

/-- Behind the line that ends a page the counter of its lines starts again. -/
def nextPageLine (linesPerPage pageLine : Nat) : Nat :=
  if linesPerPage ≤ pageLine + 1 then 0 else pageLine + 1

section Items

variable {T K : Type}

/-- The loop of `find_first_item_on_page`: the iterator moves to an index. -/
def advance (searchIdx : Nat) (itemIter : List T) (itemIdx : Nat) : List T :=
  match itemIter with
  | [] => []
  | item :: rest => if itemIdx < searchIdx then advance searchIdx rest (itemIdx + 1) else item :: rest

/-- `find_first_item_on_page`: what is left of the iterator. -/
def findFirstItemOnPage (pageNr lineOffset linesPerPage : Nat) (itemIter : List T) : List T :=
  let itemCount := itemIter.length
  let searchIdx := searchItemIdx pageNr lineOffset linesPerPage
  let searchIdx :=
    if itemCount ≤ searchIdx then u32 ((max itemCount 1 - 1) / linesPerPage * linesPerPage) else searchIdx
  advance searchIdx itemIter 0

/-- The variables of the loop of `find_first_filtered_item_on_page`. -/
structure PageScan (T : Type) where
  searchItem : Option T := none
  lastPageFirstItem : Option T := none
  itemIdx : Nat := 0
  itemCounter : Nat := 0
  pageLine : Nat := 0

/-- The first loop of `find_first_filtered_item_on_page`, up to its break, with the rest of the items. -/
def pageScan (filterFunc : T → Bool) (searchIdx linesPerPage : Nat) (itemIter : List T)
    (scan : PageScan T) : PageScan T × List T :=
  match itemIter with
  | [] => (scan, [])
  | curItem :: rest =>
    if filterFunc curItem then
      let lastPageFirstItem := if scan.pageLine = 0 then some curItem else scan.lastPageFirstItem
      let itemCounter := u32 (scan.itemCounter + 1)
      if scan.itemIdx = searchIdx then
        ({ scan with
            searchItem := some curItem, lastPageFirstItem := lastPageFirstItem
            itemCounter := itemCounter }, rest)
      else
        pageScan filterFunc searchIdx linesPerPage rest
          { scan with
            lastPageFirstItem := lastPageFirstItem, itemCounter := itemCounter
            itemIdx := u32 (scan.itemIdx + 1), pageLine := nextPageLine linesPerPage scan.pageLine }
    else pageScan filterFunc searchIdx linesPerPage rest scan

/-- The loop over the items behind the break. -/
def countFiltered (filterFunc : T → Bool) (itemIter : List T) (count : Nat) : Nat :=
  match itemIter with
  | [] => count
  | item :: rest => countFiltered filterFunc rest (if filterFunc item then u32 (count + 1) else count)

/-- `find_first_filtered_item_on_page`: the item, and `filtered_item_count`. -/
def findFirstFilteredItemOnPage (pageNr lineOffset linesPerPage : Nat) (itemIter : List T)
    (filterFunc : T → Bool) : Option T × Nat :=
  let searchIdx := searchItemIdx pageNr lineOffset linesPerPage
  let (scan, rest) := pageScan filterFunc searchIdx linesPerPage itemIter {}
  (if scan.itemIdx < searchIdx then scan.lastPageFirstItem else scan.searchItem,
    countFiltered filterFunc rest scan.itemCounter)

variable [LinearOrder K]

/-- The loop of `find_first_item_on_cursor_page`. -/
def cursorScan (cursorKey : K) (keyFunc : T → K) (linesPerPage : Nat) (itemIter : List T)
    (pageFirstItem : Option T) (idx pageLineCtr : Nat) : Option T × Nat :=
  match itemIter with
  | [] => (pageFirstItem, idx)
  | item :: rest =>
    let pageFirstItem := if pageLineCtr = 0 then some item else pageFirstItem
    if cursorKey ≤ keyFunc item then (pageFirstItem, idx)
    else
      cursorScan cursorKey keyFunc linesPerPage rest pageFirstItem (u32 (idx + 1))
        (nextPageLine linesPerPage pageLineCtr)

/-- `find_first_item_on_cursor_page`: the item, and `item_idx`. -/
def findFirstItemOnCursorPage (cursorKey : K) (keyFunc : T → K) (itemIter : List T)
    (linesPerPage : Nat) : Option T × Nat :=
  cursorScan cursorKey keyFunc linesPerPage itemIter none 0 0

/-- The first loop of `find_first_filtered_item_on_cursor_page`: the item, `idx`, `count` and the rest of
    the items. -/
def filteredCursorScan (cursorKey : K) (keyFunc : T → K) (filterFunc : T → Bool) (linesPerPage : Nat)
    (itemIter : List T) (pageFirstItem : Option T) (idx count pageLineCtr : Nat) :
    Option T × Nat × Nat × List T :=
  match itemIter with
  | [] => (pageFirstItem, idx, count, [])
  | item :: rest =>
    if filterFunc item then
      let count := u32 (count + 1)
      let idx := u32 (idx + 1)
      let pageFirstItem := if pageLineCtr = 0 then some item else pageFirstItem
      if cursorKey ≤ keyFunc item then (pageFirstItem, idx, count, rest)
      else
        filteredCursorScan cursorKey keyFunc filterFunc linesPerPage rest pageFirstItem idx count
          (nextPageLine linesPerPage pageLineCtr)
    else
      filteredCursorScan cursorKey keyFunc filterFunc linesPerPage rest pageFirstItem idx count pageLineCtr

/-- `find_first_filtered_item_on_cursor_page`: the item, `item_idx` and `item_count`. -/
def findFirstFilteredItemOnCursorPage (cursorKey : K) (keyFunc : T → K) (itemIter : List T)
    (filterFunc : T → Bool) (linesPerPage : Nat) : Option T × Nat × Nat :=
  let (pageFirstItem, idx, count, rest) :=
    filteredCursorScan cursorKey keyFunc filterFunc linesPerPage itemIter none 0 0 0
  (pageFirstItem, idx, countFiltered filterFunc rest count)

end Items

/-! ## Pages -/

section Pages

variable {T : Type} {linesPerPage : Nat}

/-- The first item of the last page. -/
def lastFirst (linesPerPage : Nat) (items : List T) : Option T :=
  items[(items.length - 1) / linesPerPage * linesPerPage]?

theorem lastFirst_eq_none {items : List T} : lastFirst linesPerPage items = none ↔ items = [] := by
  rw [lastFirst, List.getElem?_eq_none_iff]
  have hle : (items.length - 1) / linesPerPage * linesPerPage ≤ items.length - 1 :=
    Nat.div_mul_le_self _ _
  constructor
  · intro h
    exact List.eq_nil_of_length_eq_zero (by omega)
  · rintro rfl
    exact Nat.zero_le _

theorem pred_div (hlines : 0 < linesPerPage) {n : Nat} (h : n % linesPerPage ≠ 0) :
    (n - 1) / linesPerPage = n / linesPerPage := by
  have hdiv : n / linesPerPage * linesPerPage + n % linesPerPage = n := Nat.div_add_mod' _ _
  have hmod := Nat.mod_lt n hlines
  rw [Nat.div_eq_iff hlines]
  omega

/-- The number of items is an index on the last page unless the page is full. -/
theorem lastFirst_eq_iff (hlines : 0 < linesPerPage) (items : List T) :
    lastFirst linesPerPage items = items[items.length / linesPerPage * linesPerPage]? ↔
      items = [] ∨ ¬linesPerPage ∣ items.length := by
  by_cases hdvd : linesPerPage ∣ items.length
  · rw [Nat.div_mul_cancel hdvd, List.getElem?_eq_none (Nat.le_refl _), lastFirst_eq_none]
    exact ⟨Or.inl, fun h => h.resolve_right fun hnot => hnot hdvd⟩
  · have hmod : items.length % linesPerPage ≠ 0 := fun h => hdvd (Nat.dvd_of_mod_eq_zero h)
    rw [lastFirst, pred_div hlines hmod]
    exact iff_of_true rfl (Or.inr hdvd)

theorem lastFirst_concat (hlines : 0 < linesPerPage) (items : List T) (item : T) :
    lastFirst linesPerPage (items ++ [item]) =
      if items.length % linesPerPage = 0 then some item else lastFirst linesPerPage items := by
  have hdiv : items.length / linesPerPage * linesPerPage + items.length % linesPerPage = items.length :=
    Nat.div_add_mod' _ _
  rw [lastFirst, List.length_append, List.length_singleton, Nat.add_sub_cancel]
  split
  · next hmod =>
    have hidx : items.length / linesPerPage * linesPerPage = items.length := by omega
    rw [hidx, List.getElem?_concat_length]
  · next hmod =>
    rw [lastFirst, pred_div hlines hmod, List.getElem?_append_left (by omega)]

theorem nextPageLine_mod (hlines : 0 < linesPerPage) (n : Nat) :
    nextPageLine linesPerPage (n % linesPerPage) = (n + 1) % linesPerPage := by
  have hlt := Nat.mod_lt n hlines
  have hmod := Nat.mod_add_mod n linesPerPage 1
  rw [nextPageLine, ← hmod]
  split
  · have heq : n % linesPerPage + 1 = linesPerPage := by omega
    rw [heq, Nat.mod_self]
  · exact (Nat.mod_eq_of_lt (by omega)).symm

theorem advance_eq (searchIdx : Nat) (items : List T) (itemIdx : Nat) :
    advance searchIdx items itemIdx = items.drop (searchIdx - itemIdx) := by
  induction items generalizing itemIdx with
  | nil => rw [advance, List.drop_nil]
  | cons item rest ih =>
    rw [advance]
    split
    · next hlt =>
      rw [ih, ← Nat.succ_sub_succ_eq_sub searchIdx itemIdx, Nat.succ_sub (by omega), List.drop_succ_cons]
    · next hle => rw [Nat.sub_eq_zero_of_le (Nat.not_lt.1 hle), List.drop_zero]

theorem u32_of_lt {n : Nat} (h : n < 2 ^ 32) : u32 n = n := Nat.mod_eq_of_lt h

/-! ## What the loops compute -/

/-- The iterator stops at the first item of the page, or of the last page with items. -/
theorem findFirstItemOnPage_eq {pageNr : Nat} {items : List T}
    (hproduct : (pageNr - 1) * linesPerPage < 2 ^ 32) (hitems : items.length < 2 ^ 32) (hpage : 1 ≤ pageNr) :
    (findFirstItemOnPage pageNr 0 linesPerPage items).head? =
      if (pageNr - 1) * linesPerPage < items.length then items[(pageNr - 1) * linesPerPage]?
      else lastFirst linesPerPage items := by
  have hidx : searchItemIdx pageNr 0 linesPerPage = (pageNr - 1) * linesPerPage := by
    rw [searchItemIdx, Nat.max_eq_left hpage, Nat.add_zero, u32_of_lt hproduct, u32_of_lt hproduct]
  rw [findFirstItemOnPage, hidx, advance_eq, List.head?_drop, Nat.sub_zero]
  split
  · next hle =>
    have hlt : (items.length - 1) / linesPerPage * linesPerPage < 2 ^ 32 := by
      have := Nat.div_mul_le_self (items.length - 1) linesPerPage
      omega
    have hmax : max items.length 1 - 1 = items.length - 1 := by omega
    rw [if_neg (Nat.not_lt.2 hle), hmax, u32_of_lt hlt]
    rfl
  · next hlt => rw [if_pos (Nat.not_le.1 hlt)]

/-- The variables of the loop behind the items `done` of the filtered list. -/
structure Scanned (linesPerPage : Nat) (done : List T) (scan : PageScan T) : Prop where
  searchItem : scan.searchItem = none
  itemIdx : scan.itemIdx = done.length
  pageLine : scan.pageLine = done.length % linesPerPage
  last : scan.lastPageFirstItem = lastFirst linesPerPage done

/-- An item of the filtered list. -/
theorem Scanned.last_concat (hlines : 0 < linesPerPage) {done : List T} {scan : PageScan T}
    (h : Scanned linesPerPage done scan) (item : T) :
    (if scan.pageLine = 0 then some item else scan.lastPageFirstItem) =
      lastFirst linesPerPage (done ++ [item]) := by
  rw [lastFirst_concat hlines, h.pageLine, h.last]

theorem pageScan_eq (hlines : 0 < linesPerPage) (filterFunc : T → Bool) {searchIdx : Nat} (items : List T)
    {done : List T} {scan : PageScan T} (h : Scanned linesPerPage done scan) (hle : done.length ≤ searchIdx)
    (hitems : (done ++ items.filter filterFunc).length < 2 ^ 32) :
    let result := (pageScan filterFunc searchIdx linesPerPage items scan).1
    if searchIdx < (done ++ items.filter filterFunc).length then
      result.searchItem = (done ++ items.filter filterFunc)[searchIdx]? ∧ result.itemIdx = searchIdx
    else Scanned linesPerPage (done ++ items.filter filterFunc) result := by
  induction items generalizing done scan with
  | nil =>
    rw [List.filter_nil, List.append_nil, if_neg (Nat.not_lt.2 hle)]
    exact h
  | cons item rest ih =>
    by_cases hitem : filterFunc item = true
    · rw [List.filter_cons_of_pos hitem] at hitems ⊢
      rw [pageScan, if_pos hitem]
      by_cases hidx : scan.itemIdx = searchIdx
      · have hsearch : searchIdx = done.length := hidx.symm.trans h.itemIdx
        rw [if_pos hidx, if_pos (by rw [hsearch, List.length_append, List.length_cons]; omega)]
        refine ⟨?_, hidx⟩
        rw [hsearch, List.getElem?_append_right (Nat.le_refl _), Nat.sub_self, List.getElem?_cons_zero]
      · have hlen : done.length + 1 < 2 ^ 32 := by
          rw [List.length_append, List.length_cons] at hitems
          omega
        have hlast := h.last_concat hlines item
        rw [List.append_cons] at hitems ⊢
        rw [if_neg hidx, hlast]
        refine ih ⟨h.searchItem, ?_, ?_, rfl⟩ ?_ hitems
        · rw [h.itemIdx, u32_of_lt hlen, List.length_append, List.length_singleton]
        · rw [h.pageLine, nextPageLine_mod hlines, List.length_append, List.length_singleton]
        · rw [h.itemIdx] at hidx
          rw [List.length_append, List.length_singleton]
          omega
    · rw [List.filter_cons_of_neg hitem] at hitems ⊢
      rw [pageScan, if_neg hitem]
      exact ih h hle hitems

theorem findFirstFilteredItemOnPage_eq (hlines : 0 < linesPerPage) {pageNr : Nat} {items : List T}
    (filterFunc : T → Bool) (hproduct : (pageNr - 1) * linesPerPage < 2 ^ 32)
    (hitems : (items.filter filterFunc).length < 2 ^ 32) (hpage : 1 ≤ pageNr) :
    (findFirstFilteredItemOnPage pageNr 0 linesPerPage items filterFunc).1 =
      if (pageNr - 1) * linesPerPage < (items.filter filterFunc).length then
        (items.filter filterFunc)[(pageNr - 1) * linesPerPage]?
      else if (pageNr - 1) * linesPerPage = (items.filter filterFunc).length then none
      else lastFirst linesPerPage (items.filter filterFunc) := by
  have hidx : searchItemIdx pageNr 0 linesPerPage = (pageNr - 1) * linesPerPage := by
    rw [searchItemIdx, Nat.max_eq_left hpage, Nat.add_zero, u32_of_lt hproduct, u32_of_lt hproduct]
  have hstart : Scanned linesPerPage ([] : List T) {} :=
    ⟨rfl, rfl, (Nat.zero_mod _).symm, (lastFirst_eq_none.2 rfl).symm⟩
  have hscan := pageScan_eq hlines filterFunc items hstart (Nat.zero_le ((pageNr - 1) * linesPerPage)) hitems
  rw [List.nil_append] at hscan
  rw [findFirstFilteredItemOnPage, hidx]
  dsimp only at hscan ⊢
  split at hscan
  · next hlt => rw [if_pos hlt, hscan.2, if_neg (Nat.lt_irrefl _), hscan.1]
  · next hge =>
    rw [if_neg hge, hscan.itemIdx]
    split
    · next hlt => rw [if_neg (Nat.ne_of_gt hlt), hscan.last]
    · next hnot => rw [if_pos (by omega), hscan.searchItem]

section Cursor

variable {K : Type} [LinearOrder K]

/-- The number of items in front of the one with the cursor. -/
def beforeCursor (cursorKey : K) (keyFunc : T → K) (items : List T) : Nat :=
  (items.takeWhile fun item => decide (keyFunc item < cursorKey)).length

theorem beforeCursor_cons_of_le {cursorKey : K} {keyFunc : T → K} {item : T} (h : cursorKey ≤ keyFunc item)
    (rest : List T) : beforeCursor cursorKey keyFunc (item :: rest) = 0 := by
  rw [beforeCursor, List.takeWhile_cons_of_neg (by simpa using h)]
  rfl

theorem beforeCursor_cons_of_lt {cursorKey : K} {keyFunc : T → K} {item : T} (h : keyFunc item < cursorKey)
    (rest : List T) :
    beforeCursor cursorKey keyFunc (item :: rest) = beforeCursor cursorKey keyFunc rest + 1 := by
  rw [beforeCursor, List.takeWhile_cons_of_pos (by simpa using h)]
  rfl

theorem beforeCursor_le (cursorKey : K) (keyFunc : T → K) (items : List T) :
    beforeCursor cursorKey keyFunc items ≤ items.length :=
  (List.takeWhile_sublist _).length_le

/-- The whole list is in front of the cursor where no key reaches it. -/
theorem beforeCursor_eq_length {cursorKey : K} {keyFunc : T → K} {items : List T} :
    beforeCursor cursorKey keyFunc items = items.length ↔ ∀ item ∈ items, keyFunc item < cursorKey := by
  rw [beforeCursor]
  constructor
  · intro h item hitem
    have heq := (List.takeWhile_prefix (p := fun item => decide (keyFunc item < cursorKey))).eq_of_length h
    rw [← heq] at hitem
    exact of_decide_eq_true (List.mem_takeWhile_imp (p := fun item => decide (keyFunc item < cursorKey)) hitem)
  · intro h
    rw [List.takeWhile_eq_self_iff.2 fun item hitem => decide_eq_true (h item hitem)]

theorem cursorScan_eq (hlines : 0 < linesPerPage) (cursorKey : K) (keyFunc : T → K) (items done : List T)
    (hitems : (done ++ items).length < 2 ^ 32) :
    cursorScan cursorKey keyFunc linesPerPage items (lastFirst linesPerPage done) done.length
        (done.length % linesPerPage) =
      (lastFirst linesPerPage (done ++ items.take (beforeCursor cursorKey keyFunc items + 1)),
        done.length + beforeCursor cursorKey keyFunc items) := by
  induction items generalizing done with
  | nil => rw [cursorScan, List.take_nil, List.append_nil]; rfl
  | cons item rest ih =>
    rw [cursorScan, ← lastFirst_concat hlines]
    split
    · next hle => rw [beforeCursor_cons_of_le hle, List.take_succ_cons, List.take_zero, Nat.add_zero]
    · next hlt =>
      have hlen : done.length + 1 < 2 ^ 32 := by
        rw [List.length_append, List.length_cons] at hitems
        omega
      rw [List.append_cons] at hitems
      have hih := ih (done ++ [item]) hitems
      rw [List.length_append, List.length_singleton] at hih
      rw [u32_of_lt hlen, nextPageLine_mod hlines, hih, beforeCursor_cons_of_lt (not_le.1 hlt),
        List.take_succ_cons, ← List.append_cons]
      congr 1
      omega

theorem filteredCursorScan_eq (hlines : 0 < linesPerPage) (cursorKey : K) (keyFunc : T → K)
    (filterFunc : T → Bool) (items done : List T) (count : Nat)
    (hitems : (done ++ items.filter filterFunc).length < 2 ^ 32) :
    let shown := items.filter filterFunc
    let result := filteredCursorScan cursorKey keyFunc filterFunc linesPerPage items
      (lastFirst linesPerPage done) done.length count (done.length % linesPerPage)
    result.1 = lastFirst linesPerPage (done ++ shown.take (beforeCursor cursorKey keyFunc shown + 1)) ∧
      result.2.1 = done.length + min (beforeCursor cursorKey keyFunc shown + 1) shown.length := by
  induction items generalizing done count with
  | nil => exact ⟨by rw [List.filter_nil, List.take_nil, List.append_nil]; rfl, rfl⟩
  | cons item rest ih =>
    rw [filteredCursorScan]
    split
    · next hitem =>
      rw [List.filter_cons_of_pos hitem] at hitems ⊢
      have hlen : done.length + 1 < 2 ^ 32 := by
        rw [List.length_append, List.length_cons] at hitems
        omega
      dsimp only
      rw [← lastFirst_concat hlines, u32_of_lt hlen]
      split
      · next hle =>
        rw [beforeCursor_cons_of_le hle, List.take_succ_cons, List.take_zero, List.length_cons]
        exact ⟨rfl, by rw [Nat.min_eq_left (by omega)]⟩
      · next hlt =>
        rw [List.append_cons] at hitems
        have hih := ih (done ++ [item]) (u32 (count + 1)) hitems
        rw [List.length_append, List.length_singleton] at hih
        rw [nextPageLine_mod hlines, beforeCursor_cons_of_lt (not_le.1 hlt), List.take_succ_cons,
          List.length_cons]
        refine ⟨hih.1.trans (by rw [← List.append_cons]), hih.2.trans ?_⟩
        omega
    · next hitem =>
      rw [List.filter_cons_of_neg hitem] at hitems ⊢
      exact ih done count hitems

theorem findFirstItemOnCursorPage_eq (hlines : 0 < linesPerPage) (cursorKey : K) (keyFunc : T → K)
    {items : List T} (hitems : items.length < 2 ^ 32) :
    findFirstItemOnCursorPage cursorKey keyFunc items linesPerPage =
      (lastFirst linesPerPage (items.take (beforeCursor cursorKey keyFunc items + 1)),
        beforeCursor cursorKey keyFunc items) := by
  have hscan := cursorScan_eq hlines cursorKey keyFunc items [] hitems
  rw [List.nil_append, List.length_nil, Nat.zero_mod, Nat.zero_add, lastFirst_eq_none.2 rfl] at hscan
  exact hscan

/-- With a filter the item with the cursor is counted before the loop stops at it. -/
theorem findFirstFilteredItemOnCursorPage_eq (hlines : 0 < linesPerPage) (cursorKey : K) (keyFunc : T → K)
    (filterFunc : T → Bool) {items : List T} (hitems : (items.filter filterFunc).length < 2 ^ 32) :
    let shown := items.filter filterFunc
    let result := findFirstFilteredItemOnCursorPage cursorKey keyFunc items filterFunc linesPerPage
    result.1 = lastFirst linesPerPage (shown.take (beforeCursor cursorKey keyFunc shown + 1)) ∧
      result.2.1 = min (beforeCursor cursorKey keyFunc shown + 1) shown.length := by
  have hscan := filteredCursorScan_eq hlines cursorKey keyFunc filterFunc items [] 0 hitems
  simp only [List.nil_append, List.length_nil, Nat.zero_mod, Nat.zero_add, lastFirst_eq_none.2] at hscan
  exact hscan

end Cursor

/-! ## Agreement -/

/-- With the filter a page begins with the item with which it begins on the filtered list. -/
def PageAgrees (pageNr linesPerPage : Nat) (items : List T) (filterFunc : T → Bool) : Prop :=
  (findFirstFilteredItemOnPage pageNr 0 linesPerPage items filterFunc).1 =
    (findFirstItemOnPage pageNr 0 linesPerPage (items.filter filterFunc)).head?

/-- With the filter the cursor's page has the item and the index that it has on the filtered list, and the
    item is the first one of the page that the index is on. -/
def CursorAgrees {K : Type} [LinearOrder K] (cursorKey : K) (keyFunc : T → K) (linesPerPage : Nat)
    (items : List T) (filterFunc : T → Bool) : Prop :=
  let result := findFirstFilteredItemOnCursorPage cursorKey keyFunc items filterFunc linesPerPage
  let plain := findFirstItemOnCursorPage cursorKey keyFunc (items.filter filterFunc) linesPerPage
  result.1 = plain.1 ∧ result.2.1 = plain.2 ∧
    result.1 = (items.filter filterFunc)[result.2.1 / linesPerPage * linesPerPage]?

theorem pageAgrees_iff (hlines : 0 < linesPerPage) {pageNr : Nat} {items : List T} {filterFunc : T → Bool}
    (hproduct : (pageNr - 1) * linesPerPage < 2 ^ 32) (hitems : (items.filter filterFunc).length < 2 ^ 32)
    (hpage : 1 ≤ pageNr) :
    PageAgrees pageNr linesPerPage items filterFunc ↔
      ¬(items.filter filterFunc ≠ [] ∧ (pageNr - 1) * linesPerPage = (items.filter filterFunc).length) := by
  rw [PageAgrees, findFirstFilteredItemOnPage_eq hlines filterFunc hproduct hitems hpage,
    findFirstItemOnPage_eq hproduct hitems hpage]
  by_cases hlt : (pageNr - 1) * linesPerPage < (items.filter filterFunc).length
  · rw [if_pos hlt, if_pos hlt]
    exact iff_of_true rfl fun h => Nat.ne_of_lt hlt h.2
  · rw [if_neg hlt, if_neg hlt]
    by_cases heq : (pageNr - 1) * linesPerPage = (items.filter filterFunc).length
    · rw [if_pos heq, eq_comm, lastFirst_eq_none]
      simp [heq]
    · rw [if_neg heq]
      exact iff_of_true rfl fun h => heq h.2

theorem cursorAgrees_iff {K : Type} [LinearOrder K] (hlines : 0 < linesPerPage) (cursorKey : K)
    (keyFunc : T → K) {items : List T} {filterFunc : T → Bool}
    (hitems : (items.filter filterFunc).length < 2 ^ 32) :
    CursorAgrees cursorKey keyFunc linesPerPage items filterFunc ↔
      (∀ item ∈ items.filter filterFunc, keyFunc item < cursorKey) ∧
        (items.filter filterFunc = [] ∨ ¬linesPerPage ∣ (items.filter filterFunc).length) := by
  obtain ⟨hitem, hidx⟩ := findFirstFilteredItemOnCursorPage_eq hlines cursorKey keyFunc filterFunc hitems
  rw [CursorAgrees, findFirstItemOnCursorPage_eq hlines cursorKey keyFunc hitems, hidx, hitem]
  generalize items.filter filterFunc = shown
  have hle := beforeCursor_le cursorKey keyFunc shown
  rw [← beforeCursor_eq_length]
  by_cases hall : beforeCursor cursorKey keyFunc shown = shown.length
  · -- nothing reaches the cursor, and the index is the number of items
    rw [hall, Nat.min_eq_right (Nat.le_succ _), List.take_of_length_le (Nat.le_succ _)]
    simp only [true_and]
    exact lastFirst_eq_iff hlines shown
  · refine iff_of_false ?_ fun h => hall h.1
    rintro ⟨-, h, -⟩
    omega

/-- For every list, filter and page: the page agrees unless it begins right behind the last item, and the
    cursor's page unless an item reaches the cursor or the last page is full. -/
theorem navigation_agrees_iff {K : Type} [LinearOrder K] (hlines : 1 ≤ linesPerPage) {items : List T}
    {filterFunc : T → Bool} (hitems : (items.filter filterFunc).length < 2 ^ 32) :
    (∀ pageNr, 1 ≤ pageNr → (pageNr - 1) * linesPerPage < 2 ^ 32 →
      (PageAgrees pageNr linesPerPage items filterFunc ↔
        ¬(items.filter filterFunc ≠ [] ∧
          (pageNr - 1) * linesPerPage = (items.filter filterFunc).length))) ∧
      ∀ (cursorKey : K) (keyFunc : T → K),
        CursorAgrees cursorKey keyFunc linesPerPage items filterFunc ↔
          (∀ item ∈ items.filter filterFunc, keyFunc item < cursorKey) ∧
            (items.filter filterFunc = [] ∨ ¬linesPerPage ∣ (items.filter filterFunc).length) :=
  ⟨fun _ hpage hproduct => pageAgrees_iff hlines hproduct hitems hpage,
    fun cursorKey keyFunc => cursorAgrees_iff hlines cursorKey keyFunc hitems⟩

theorem navigation_agrees_iff_three :
    (PageAgrees 2 2 [0, 1, 2] (fun _ => true) ↔ ¬([0, 1, 2] ≠ [] ∧ (2 - 1) * 2 = [0, 1, 2].length)) ∧
      (CursorAgrees 1 id 2 [0, 1, 2] (fun _ => true) ↔
        (∀ item ∈ [0, 1, 2], id item < 1) ∧ ([0, 1, 2] = [] ∨ ¬2 ∣ [0, 1, 2].length)) :=
  ⟨(navigation_agrees_iff (K := Nat) (T := Nat) (by decide) (by decide)).1 2 (by decide) (by decide),
    (navigation_agrees_iff (K := Nat) (T := Nat) (by decide) (by decide)).2 1 id⟩

/-- Two items, two lines: the second page shows nothing instead of the first one; and the second item is on
    the first page, but its index is on the second. -/
theorem full_page_disagrees :
    (findFirstFilteredItemOnPage 2 0 2 [0, 1] fun _ => true).1 = none ∧
      (findFirstItemOnPage 2 0 2 [0, 1]).head? = some 0 ∧
      findFirstFilteredItemOnCursorPage 1 id [0, 1] (fun _ => true) 2 = (some 0, 2, 2) ∧
      findFirstItemOnCursorPage 1 id [0, 1] 2 = (some 0, 1) := by
  decide

end Pages

end DrbdUtils.DrbdMon.Navigation
