import DrbdUtils.DrbdMon.QTreeEdit
import DrbdUtils.Lib.OrdMap

/-!
# drbdmon's search tree is an ordered map

`Models s m` says that the nodes of `s` spell a balanced search tree with the entries of `m`, and that
no other node exists.

* `exec_models` — each operation answers as the ordered map does, and keeps `Models`.
* `run_eq_specRun` — so does every run, from the empty tree.
-/

set_option autoImplicit false

namespace DrbdUtils.DrbdMon.QTree

open Lib.AvlTree

variable {κ α : Type} [LinearOrder κ] {s : QTree κ α} {m : OrdMap κ α}

/-- The nodes of `s` are the nodes of the balanced search tree `t`, with the entries of `m`. -/
structure Spells (s : QTree κ α) (t : Shape κ α) (m : OrdMap κ α) : Prop where
  holds : Holds s t
  avl : t.Avl
  entries_eq : t.entries.map Prod.snd = m.entries
  size_eq : s.size = m.size
  alive_iff : ∀ q, s.nodes q ≠ none ↔ q ∈ ids t
  fresh : ∀ q ∈ ids t, q < s.nextPtr

def Models (s : QTree κ α) (m : OrdMap κ α) : Prop := ∃ t, Spells s t m

/-- The key and the value of a node. -/
def entryAt (s : QTree κ α) (p : Ptr) : Option (κ × α) := (s.nodes p).map fun n => (n.key, n.value)

theorem spells_empty : Spells ({} : QTree κ α) .nil OrdMap.empty where
  holds := ⟨rfl, trivial, by simp⟩
  avl := trivial
  entries_eq := rfl
  size_eq := rfl
  alive_iff q := by simp
  fresh q h := by simp at h

/-- So many turns are enough for a tree of `size` nodes. -/
theorem Spells.height_le {t : Shape κ α} {turns : Nat} (h : Spells s t m)
    (hsize : m.size + 1 < (turns + 3).fib) : t.height ≤ turns := by
  by_contra hlt
  have hlen : t.entries.length = m.size := by
    rw [OrdMap.size, ← h.entries_eq, List.length_map]
  have hfib := h.avl.fib_le
  rw [hlen] at hfib
  have hmono : (turns + 3).fib ≤ (t.height + 2).fib := Nat.fib_mono (by omega)
  omega

/-! ## Search -/

theorem guides_towards {t : Shape κ α} (h : Spells s t m) (key : κ) :
    Guides (towards key) t.entries := by
  have hs := m.sorted
  rw [← h.entries_eq, List.pairwise_map] at hs
  refine hs.imp fun {x y} hlt => ⟨fun hx => ?_, fun hy => ?_⟩
  · have hle : ¬x.2.1 < key := by
      intro hk
      simp [towards, hk, not_lt_of_gt hk] at hx
    rw [towards, if_pos (lt_of_le_of_lt (not_lt.1 hle) hlt)]
  · have hle : ¬key < y.2.1 := by
      intro hk
      simp [towards, hk] at hy
    have hk := lt_of_lt_of_le hlt (not_lt.1 hle)
    rw [towards, if_neg (not_lt_of_gt hk), if_pos hk]

theorem towards_eq_none {key : κ} {e : κ × α} : towards key e = none ↔ e.1 = key := by
  unfold towards
  rcases lt_trichotomy key e.1 with h | h | h
  · simp [h, h.ne']
  · simp [h]
  · simp [h, h.ne, not_lt_of_gt h]

theorem towards_eq_greater {key : κ} {e : κ × α} : towards key e = some .greater ↔ e.1 < key := by
  unfold towards
  rcases lt_trichotomy key e.1 with h | h | h
  · simp [h, not_lt_of_gt h]
  · simp [h]
  · simp [h, not_lt_of_gt h]

theorem towards_eq_less {key : κ} {e : κ × α} : towards key e = some .less ↔ key < e.1 := by
  unfold towards
  rcases lt_trichotomy key e.1 with h | h | h
  · simp [h]
  · simp [h]
  · simp [h, not_lt_of_gt h]

/-- The end of the search for a key: its place, or its node. -/
inductive Found (t : Shape κ α) (m : OrdMap κ α) (key : κ) : Path κ α × Shape κ α → Prop
  | missing {fs : Path κ α} (hplug : t = plug fs .nil) (hnone : m.get key = none)
      (hlow : ∀ x ∈ before fs, x.2.1 < key) (hhigh : ∀ x ∈ after fs, key < x.2.1) :
      Found t m key (fs, .nil)
  | present {fs : Path κ α} {p : Ptr} {l r : Shape κ α} {e : κ × α} {b : Int}
      (hplug : t = plug fs (.node p l e b r)) (hkey : e.1 = key)
      (hentries : m.entries = ((before fs ++ l.entries).map Prod.snd) ++
        e :: (r.entries ++ after fs).map Prod.snd) :
      Found t m key (fs, .node p l e b r)

theorem Spells.found {t : Shape κ α} (h : Spells s t m) (key : κ) :
    Found t m key (descend (towards key) [] t) := by
  have hplug := plug_descend (towards key) [] t
  obtain ⟨hnil, hpoints⟩ | ⟨p, l, e, b, r, hnode, hgo⟩ :=
    descend_points (guides_towards h key) (Points.top _)
  all_goals
    generalize descend (towards key) [] t = w at *
    obtain ⟨fs, t'⟩ := w
    dsimp only at *
    subst_vars
  · have hlow : ∀ x ∈ before fs, x.2.1 < key := fun x hx =>
      towards_eq_greater.1 (hpoints.before_eq x hx)
    have hhigh : ∀ x ∈ after fs, key < x.2.1 := fun x hx =>
      towards_eq_less.1 (hpoints.after_eq x hx)
    refine .missing rfl ?_ hlow hhigh
    rw [OrdMap.get, OrdMap.lookup_eq_none_iff, ← h.entries_eq]
    intro x hx
    simp only [entries_plug, BinTree.entries, List.append_nil, List.map_append, List.mem_append,
      List.mem_map] at hx
    rcases hx with ⟨y, hy, rfl⟩ | ⟨y, hy, rfl⟩
    · exact (hlow y hy).ne
    · exact (hhigh y hy).ne'
  · refine .present rfl (towards_eq_none.1 hgo) ?_
    rw [← h.entries_eq]
    simp [entries_plug, BinTree.entries]

theorem Spells.place_eq {t : Shape κ α} (h : Spells s t m) (cmp : CompareFunc κ) (key : κ)
    {turns : Nat} (hturns : t.height ≤ turns) :
    s.place cmp turns key = some (placeAt (descend (towards key) [] t)) := by
  rw [place, h.holds.root_eq]
  cases hroot : t.root? with
  | none =>
    obtain rfl := root?_eq_none.1 hroot
    rfl
  | some p =>
    have hplug : Holds s (plug [] t) := h.holds
    exact placeFrom_eq cmp hplug hroot hturns

theorem Spells.findNode_eq {t : Shape κ α} (h : Spells s t m) (cmp : CompareFunc κ) (key : κ)
    {turns : Nat} (hturns : t.height ≤ turns) :
    s.findNode cmp turns key = some (descend (towards key) [] t).2.root? := by
  rw [findNode, h.holds.root_eq]
  have hplug : Holds s (plug [] t) := h.holds
  exact findFrom_eq cmp hplug hturns

/-! ## One change -/

theorem Spells.insertNodeImpl {fs : Path κ α} {key : κ} {turns : Nat}
    (h : Spells s (plug fs .nil) m) (hnone : m.get key = none) (hlow : ∀ x ∈ before fs, x.2.1 < key)
    (hhigh : ∀ x ∈ after fs, key < x.2.1) (hturns : fs.length ≤ turns) (value : α) :
    ∃ s' m', s.insertNodeImpl turns (fs.head?.map fun f => (f.p, f.dir)) key value = some s' ∧
      m.insert key value = some m' ∧ Models s' m' := by
  have hnew : (BinTree.node s.nextPtr .nil (key, value) 0 .nil : Shape κ α).Avl :=
    ⟨trivial, trivial, by simp [BinTree.height], by omega, by omega⟩
  obtain ⟨r, hup, hravl⟩ := GrowUp.exists_avl (n := 0) hnew rfl (.inr rfl) (avl_plug.1 h.avl).2
  have hids : ∀ q, q ∈ ids (plug fs .nil) ↔ q ∈ pathIds fs := fun q => by simp [mem_ids_plug]
  have hfresh : s.nextPtr ∉ pathIds fs := fun hmem =>
    lt_irrefl _ (h.fresh _ ((hids _).2 hmem))
  obtain ⟨s', e', h', hother, hsize, hnext⟩ :=
    insertNodeImpl_holds h.holds hfresh hup hturns
  have hidr : ∀ q, q ∈ ids r ↔ q = s.nextPtr ∨ q ∈ pathIds fs := by
    intro q
    rw [ids, hup.entries_eq, ← ids, mem_ids_plug, mem_ids_node]
    simp
  refine ⟨s', ⟨OrdMap.insertEntry key value m.entries, OrdMap.insertEntry_sorted m.sorted hnone⟩, e',
    dif_pos hnone, r, h', hravl, ?_, ?_, fun q => ⟨fun hq => ?_, h'.tree.alive⟩, fun q hq => ?_⟩
  · have hsplit : m.entries = (before fs).map Prod.snd ++ (after fs).map Prod.snd := by
      rw [← h.entries_eq, entries_plug]
      simp [BinTree.entries]
    have hlow' : ∀ e ∈ (before fs).map Prod.snd, e.1 < key := by
      intro e he
      obtain ⟨x, hx, rfl⟩ := List.mem_map.1 he
      exact hlow x hx
    have hhigh' : ∀ e ∈ (after fs).map Prod.snd, key < e.1 := by
      intro e he
      obtain ⟨x, hx, rfl⟩ := List.mem_map.1 he
      exact hhigh x hx
    change r.entries.map Prod.snd = OrdMap.insertEntry key value m.entries
    rw [hsplit, OrdMap.insertEntry_append hlow' hhigh', hup.entries_eq, entries_plug]
    simp [BinTree.entries]
  · have hlen : (OrdMap.insertEntry key value m.entries).length = m.entries.length + 1 :=
      OrdMap.length_insertEntry ..
    rw [hsize, h.size_eq, OrdMap.size, OrdMap.size, hlen]
  · by_contra hnot
    rw [hidr, not_or] at hnot
    rw [hother q hnot.1 hnot.2, h.alive_iff, hids] at hq
    exact hnot.2 hq
  · rw [hnext]
    rcases (hidr q).1 hq with rfl | hq
    · exact Nat.lt_succ_self _
    · exact Nat.lt_succ_of_lt (h.fresh q ((hids q).2 hq))

theorem Spells.updateValue {fs : Path κ α} {p : Ptr} {l r : Shape κ α} {e : κ × α} {b : Int}
    (h : Spells s (plug fs (.node p l e b r)) m)
    (hentries : m.entries = ((before fs ++ l.entries).map Prod.snd) ++
      e :: (r.entries ++ after fs).map Prod.snd) (value : α) :
    ∃ s', (s.upd p fun n => { n with value := value }) = some s' ∧
      Models s' (m.adjust e.1 fun _ => value) := by
  obtain ⟨s', e', h', k'⟩ := setValue_holds (d := .less) h.holds value
  have hids : ∀ q, q ∈ ids (plug fs (.node p l (e.1, value) b r)) ↔
      q ∈ ids (plug fs (.node p l e b r)) := by
    intro q
    rw [mem_ids_plug, mem_ids_plug, mem_ids_node, mem_ids_node]
  refine ⟨s', e', _, h', ?_, ?_, ?_, fun q => ?_, fun q hq => ?_⟩
  · have havl := avl_plug.1 h.avl
    exact avl_plug.2 ⟨havl.1, havl.2⟩
  · rw [OrdMap.entries_adjust hentries, BinTree.join, entries_plug]
    simp [BinTree.entries]
  · rw [k'.size_eq, h.size_eq, OrdMap.size, OrdMap.size, OrdMap.entries_adjust hentries, hentries]
    simp
  · refine ⟨fun hq => ?_, h'.tree.alive⟩
    by_contra hnot
    have hnot' := fun hmem => hnot ((hids q).2 hmem)
    rw [k'.other q hnot', h.alive_iff] at hq
    exact hnot' hq
  · rw [k'.nextPtr_eq]
    exact h.fresh q ((hids q).1 hq)

theorem Spells.removeNodeImpl {fs : Path κ α} {p : Ptr} {l r : Shape κ α} {e : κ × α} {b : Int}
    {turns : Nat} (h : Spells s (plug fs (.node p l e b r)) m)
    (hentries : m.entries = ((before fs ++ l.entries).map Prod.snd) ++
      e :: (r.entries ++ after fs).map Prod.snd)
    (hturns : (plug fs (.node p l e b r)).height ≤ turns) :
    ∃ s', s.removeNodeImpl turns p = some s' ∧ Models s' (m.remove e.1) := by
  obtain ⟨s1, t', e1, h1, havl, hent, hp, k1⟩ := unlinkNodeImpl_holds h.holds h.avl hturns
  have hids : ∀ q, q ∈ ids t' ↔ q ≠ p ∧ q ∈ ids (plug fs (.node p l e b r)) := by
    obtain ⟨hnd, -, hdisj⟩ := nodup_plug h.holds.nodup
    obtain ⟨-, -, hpl, hpr, -⟩ := nodup_join (d := .less).1 hnd
    have hpfs := hdisj p (mem_ids_node.2 (.inl rfl))
    intro q
    have hmem : q ∈ ids t' ↔ q ∈ ids l ∨ q ∈ ids r ∨ q ∈ pathIds fs := by
      simp only [ids, pathIds, hent, List.map_append, List.mem_append]
      tauto
    rw [hmem, mem_ids_plug, mem_ids_node]
    grind
  obtain ⟨n, hn⟩ := Option.ne_none_iff_exists'.1 hp
  have hother : ∀ q, q ≠ p → Function.update s1.nodes p none q = s1.nodes q := fun q hq =>
    Function.update_of_ne hq _ _
  refine ⟨{ s1 with nodes := Function.update s1.nodes p none }, ?_, t', ⟨h1.root_eq, ?_, h1.nodup⟩, havl,
    ?_, ?_, fun q => ?_, fun q hq => ?_⟩
  · rw [QTree.removeNodeImpl, e1, Option.bind_eq_bind, Option.bind_some, delete, hn]
    rfl
  · exact h1.tree.congr fun q hq => hother q ((hids q).1 hq).1
  · rw [OrdMap.entries_remove hentries, hent]
    simp
  · have hsize : s1.size = s.size - 1 := k1.size_eq
    rw [OrdMap.size, OrdMap.entries_remove hentries]
    have hs : s.size = m.entries.length := h.size_eq
    rw [hentries] at hs
    simp only [List.length_append, List.length_cons] at hs ⊢
    omega
  · rw [hids]
    by_cases hq : q = p
    · subst hq
      simp
    · change Function.update s1.nodes p none q ≠ none ↔ _
      rw [hother q hq]
      refine ⟨fun hne => ⟨hq, ?_⟩, fun hmem => h1.tree.alive ((hids q).2 hmem)⟩
      by_contra hnot
      rw [k1.other q hnot] at hne
      exact hnot ((h.alive_iff q).1 hne)
  · have hnext : s1.nextPtr = s.nextPtr := k1.nextPtr_eq
    change q < s1.nextPtr
    rw [hnext]
    exact h.fresh q ((hids q).1 hq).2

/-- Clearing leaves no node. -/
theorem Models.clear {turns : Nat} (h : Models s m) (hturns : 2 * m.size ≤ turns) :
    ∃ s', s.clear turns = some s' ∧ Models s' OrdMap.empty := by
  obtain ⟨t, h⟩ := h
  have hlen : t.entries.length = m.size := by
    rw [OrdMap.size, ← h.entries_eq, List.length_map]
  obtain ⟨s1, run, hnone⟩ : ∃ s1, s.clearFrom turns t.root? = some s1 ∧ ∀ q, s1.nodes q = none := by
    have hnot : ∀ q, q ∉ ids t → s.nodes q = none := fun q hq => by
      by_contra hne
      exact hq ((h.alive_iff q).1 hne)
    cases hroot : t.root? with
    | none =>
      obtain rfl := root?_eq_none.1 hroot
      refine ⟨s, by cases turns <;> rfl, fun q => hnot q (by simp)⟩
    | some p =>
      have hplug : Holds s (plug [] t) := h.holds
      obtain ⟨s1, run, -, hnone, k1⟩ := clearFrom_holds hplug hroot
      obtain ⟨k, rfl⟩ := Nat.exists_eq_add_of_le hturns
      refine ⟨s1, ?_, fun q => ?_⟩
      · rw [← hlen, run]
        rfl
      · by_cases hq : q ∈ ids t
        · exact hnone q hq
        · exact (k1.other q hq).trans (hnot q hq)
  refine ⟨{ s1 with root := none, size := 0 }, ?_, .nil, ⟨rfl, trivial, by simp⟩, trivial, rfl, rfl,
    fun q => ?_, fun q hq => by simp at hq⟩
  · rw [QTree.clear, h.holds.root_eq, run]
    rfl
  · simp [hnone q]

/-! ## Runs -/

/-- The operations of the map. -/
inductive Op (κ α : Type) where
  | get (key : κ)
  | insert (key : κ) (value : α)
  | insertOrUpdate (key : κ) (value : α)
  | update (key : κ) (value : α)
  | remove (key : κ)
  | clear

/-- What an operation returns. -/
inductive Reply (κ α : Type) where
  | entry (e : Option (κ × α))
  | inserted (ok : Bool)
  | prevValue (value : Option α)
  | done
  deriving DecidableEq

/-- An operation on the tree; `clearTurns` is for `clear`. -/
def exec (cmp : CompareFunc κ) (turns clearTurns : Nat) (s : QTree κ α) :
    Op κ α → Option (Reply κ α × QTree κ α)
  | .get key => (s.getEntry cmp turns key).map fun e => (.entry e, s)
  | .insert key value => (s.insert cmp turns key value).map fun r => (.inserted r.1, r.2)
  | .insertOrUpdate key value =>
    (s.insertOrUpdate cmp turns key value).map fun r => (.prevValue r.1, r.2)
  | .update key value => (s.update cmp turns key value).map fun r => (.prevValue r.1, r.2)
  | .remove key => (s.remove cmp turns key).map fun s' => (.done, s')
  | .clear => (s.clear clearTurns).map fun s' => (.done, s')

/-- An operation on the ordered map. -/
def specExec (m : OrdMap κ α) : Op κ α → Reply κ α × OrdMap κ α
  | .get key => (.entry ((m.get key).map fun value => (key, value)), m)
  | .insert key value =>
    match m.insert key value with
    | some m' => (.inserted true, m')
    | none => (.inserted false, m)
  | .insertOrUpdate key value =>
    match m.insert key value with
    | some m' => (.prevValue none, m')
    | none => (.prevValue (m.get key), m.adjust key fun _ => value)
  | .update key value => (.prevValue (m.get key), m.adjust key fun _ => value)
  | .remove key => (.done, m.remove key)
  | .clear => (.done, OrdMap.empty)

/-- Operations one after the other. -/
def run (cmp : CompareFunc κ) (turns clearTurns : Nat) :
    QTree κ α → List (Op κ α) → Option (List (Reply κ α) × QTree κ α)
  | s, [] => some ([], s)
  | s, op :: ops => do
    let (reply, s) ← s.exec cmp turns clearTurns op
    let (replies, s) ← run cmp turns clearTurns s ops
    return (reply :: replies, s)

def specRun : OrdMap κ α → List (Op κ α) → List (Reply κ α) × OrdMap κ α
  | m, [] => ([], m)
  | m, op :: ops =>
    let (reply, m) := specExec m op
    let (replies, m) := specRun m ops
    (reply :: replies, m)

/-! ## One operation -/

theorem get_of_entries {l l' : List (κ × α)} {e : κ × α} (h : m.entries = l ++ e :: l') :
    m.get e.1 = some e.2 := by
  refine OrdMap.mem_iff_get.1 ?_
  rw [h]
  simp

theorem insert_of_entries {l l' : List (κ × α)} {e : κ × α} (h : m.entries = l ++ e :: l')
    (value : α) : m.insert e.1 value = none := by
  rw [OrdMap.insert_eq_none_iff, get_of_entries h]
  simp

/-- Of a place that the search for a new key ends at. -/
theorem Spells.length_le {fs : Path κ α} {turns : Nat} (h : Spells s (plug fs .nil) m)
    (hsize : m.size + 1 < (turns + 3).fib) : fs.length ≤ turns :=
  (Nat.le_add_right _ _).trans ((length_le_height fs .nil).trans (h.height_le hsize))

section Step

variable (cmp : CompareFunc κ) {turns : Nat} (clearTurns : Nat)

theorem exec_get (h : Models s m) (hsize : m.size + 1 < (turns + 3).fib) (key : κ) :
    s.exec cmp turns clearTurns (.get key) = some ((specExec m (.get key)).1, s) := by
  obtain ⟨t, h⟩ := h
  have hfound := h.found key
  rw [exec, getEntry, h.findNode_eq cmp key (h.height_le hsize), specExec]
  generalize descend (towards key) [] t = w at hfound ⊢
  cases hfound with
  | missing hplug hnone hlow hhigh =>
    rw [hnone]
    rfl
  | present hplug hkey hentries =>
    subst hplug hkey
    have hnode := node_of_holds' h.holds
    simp only [BinTree.root?, Option.bind_eq_bind, Option.bind_some, hnode, get_of_entries hentries,
      Option.pure_def, Option.map_some]

theorem exec_insert (h : Models s m) (hsize : m.size + 1 < (turns + 3).fib) (key : κ) (value : α) :
    ∃ s', s.exec cmp turns clearTurns (.insert key value) =
        some ((specExec m (.insert key value)).1, s') ∧
      Models s' (specExec m (.insert key value)).2 := by
  obtain ⟨t, hs⟩ := h
  have hfound := hs.found key
  rw [exec, QTree.insert, hs.place_eq cmp key (hs.height_le hsize), specExec]
  generalize descend (towards key) [] t = w at hfound ⊢
  cases hfound with
  | missing hplug hnone hlow hhigh =>
    subst hplug
    obtain ⟨s', m', e', hm', h'⟩ := hs.insertNodeImpl hnone hlow hhigh (hs.length_le hsize) value
    refine ⟨s', ?_, by simpa only [hm'] using h'⟩
    simp only [placeAt, BinTree.root?, Option.bind_eq_bind, Option.bind_some, e', hm', Option.pure_def,
      Option.map_some]
  | present hplug hkey hentries =>
    subst hkey
    rw [insert_of_entries hentries]
    exact ⟨s, rfl, t, hs⟩

theorem exec_insertOrUpdate (h : Models s m) (hsize : m.size + 1 < (turns + 3).fib) (key : κ)
    (value : α) :
    ∃ s', s.exec cmp turns clearTurns (.insertOrUpdate key value) =
        some ((specExec m (.insertOrUpdate key value)).1, s') ∧
      Models s' (specExec m (.insertOrUpdate key value)).2 := by
  obtain ⟨t, hs⟩ := h
  have hfound := hs.found key
  rw [exec, insertOrUpdate, hs.place_eq cmp key (hs.height_le hsize), specExec]
  generalize descend (towards key) [] t = w at hfound ⊢
  cases hfound with
  | missing hplug hnone hlow hhigh =>
    subst hplug
    obtain ⟨s', m', e', hm', h'⟩ := hs.insertNodeImpl hnone hlow hhigh (hs.length_le hsize) value
    refine ⟨s', ?_, by simpa only [hm'] using h'⟩
    simp only [placeAt, BinTree.root?, Option.bind_eq_bind, Option.bind_some, e', hm', Option.pure_def,
      Option.map_some]
  | present hplug hkey hentries =>
    subst hplug hkey
    obtain ⟨s', e', h'⟩ := hs.updateValue hentries value
    have hnode := node_of_holds' hs.holds
    refine ⟨s', ?_, by simpa only [insert_of_entries hentries value] using h'⟩
    simp only [placeAt, BinTree.root?, Option.bind_eq_bind, Option.bind_some, hnode, e',
      insert_of_entries hentries value, get_of_entries hentries, Option.pure_def, Option.map_some]

theorem adjust_of_get_eq_none {key : κ} (h : m.get key = none) (f : α → α) : m.adjust key f = m := by
  refine OrdMap.ext_get fun k => ?_
  rw [OrdMap.get_adjust]
  split
  · next hk => rw [hk, h]; rfl
  · rfl

theorem remove_of_get_eq_none {key : κ} (h : m.get key = none) : m.remove key = m := by
  refine OrdMap.ext_get fun k => ?_
  rw [OrdMap.get_remove]
  split
  · next hk => rw [hk, h]
  · rfl

theorem exec_update (h : Models s m) (hsize : m.size + 1 < (turns + 3).fib) (key : κ) (value : α) :
    ∃ s', s.exec cmp turns clearTurns (.update key value) =
        some ((specExec m (.update key value)).1, s') ∧
      Models s' (specExec m (.update key value)).2 := by
  obtain ⟨t, hs⟩ := h
  have hfound := hs.found key
  rw [exec, update, hs.findNode_eq cmp key (hs.height_le hsize), specExec]
  generalize descend (towards key) [] t = w at hfound ⊢
  cases hfound with
  | missing hplug hnone hlow hhigh =>
    rw [hnone, adjust_of_get_eq_none hnone]
    exact ⟨s, rfl, t, hs⟩
  | present hplug hkey hentries =>
    subst hplug hkey
    obtain ⟨s', e', h'⟩ := hs.updateValue hentries value
    have hnode := node_of_holds' hs.holds
    refine ⟨s', ?_, h'⟩
    simp only [BinTree.root?, Option.bind_eq_bind, Option.bind_some, hnode, e',
      get_of_entries hentries, Option.pure_def, Option.map_some]

theorem exec_remove (h : Models s m) (hsize : m.size + 1 < (turns + 3).fib) (key : κ) :
    ∃ s', s.exec cmp turns clearTurns (.remove key) = some (.done, s') ∧
      Models s' (m.remove key) := by
  obtain ⟨t, hs⟩ := h
  have hheight := hs.height_le hsize
  have hfound := hs.found key
  rw [exec, remove, hs.findNode_eq cmp key hheight]
  generalize descend (towards key) [] t = w at hfound ⊢
  cases hfound with
  | missing hplug hnone hlow hhigh =>
    rw [remove_of_get_eq_none hnone]
    exact ⟨s, rfl, t, hs⟩
  | present hplug hkey hentries =>
    subst hplug hkey
    obtain ⟨s', e', h'⟩ := hs.removeNodeImpl hentries hheight
    refine ⟨s', ?_, h'⟩
    simp only [BinTree.root?, Option.bind_eq_bind, Option.bind_some, e', Option.map_some]

/-- **Each operation answers as the map does, and keeps the tree balanced.** -/
theorem exec_models {clearTurns : Nat} (h : Models s m) (hsize : m.size + 1 < (turns + 3).fib)
    (hclear : 2 * m.size ≤ clearTurns) (op : Op κ α) :
    ∃ s', s.exec cmp turns clearTurns op = some ((specExec m op).1, s') ∧
      Models s' (specExec m op).2 := by
  cases op with
  | get key => exact ⟨s, exec_get cmp clearTurns h hsize key, h⟩
  | insert key value => exact exec_insert cmp clearTurns h hsize key value
  | insertOrUpdate key value => exact exec_insertOrUpdate cmp clearTurns h hsize key value
  | update key value => exact exec_update cmp clearTurns h hsize key value
  | remove key => exact exec_remove cmp clearTurns h hsize key
  | clear =>
    obtain ⟨s', e', h'⟩ := h.clear hclear
    refine ⟨s', ?_, h'⟩
    rw [exec, e']
    rfl

end Step

/-! ## All runs -/

theorem size_specExec_le (m : OrdMap κ α) (op : Op κ α) : (specExec m op).2.size ≤ m.size + 1 := by
  have hins : ∀ {key : κ} {value : α} {m' : OrdMap κ α}, m.insert key value = some m' →
      m'.size = m.size + 1 := by
    intro key value m' h
    unfold OrdMap.insert at h
    split at h
    · cases h
      exact OrdMap.length_insertEntry key value m.entries
    · cases h
  have hadj : ∀ (key : κ) (f : α → α), (m.adjust key f).size = m.size := fun key f =>
    List.length_map _
  cases op with
  | get key => simp [specExec]
  | insert key value =>
    simp only [specExec]
    split
    · next hm => exact (hins hm).le
    · simp
  | insertOrUpdate key value =>
    simp only [specExec]
    split
    · next hm => exact (hins hm).le
    · simp [hadj]
  | update key value => simp [specExec, hadj]
  | remove key => exact (List.length_filter_le _ _).trans (Nat.le_succ _)
  | clear => simp [specExec, OrdMap.empty, OrdMap.size]

theorem run_models (cmp : CompareFunc κ) {turns clearTurns : Nat} {ops : List (Op κ α)}
    (h : Models s m) (hsize : m.size + ops.length < (turns + 3).fib)
    (hclear : 2 * (m.size + ops.length) ≤ clearTurns) :
    ∃ s', s.run cmp turns clearTurns ops = some ((specRun m ops).1, s') ∧
      Models s' (specRun m ops).2 := by
  induction ops generalizing s m with
  | nil => exact ⟨s, rfl, h⟩
  | cons op ops ih =>
    rw [List.length_cons] at hsize hclear
    have hsize1 : m.size + 1 < (turns + 3).fib := by omega
    have hclear1 : 2 * m.size ≤ clearTurns := by omega
    obtain ⟨s1, e1, h1⟩ := exec_models cmp h hsize1 hclear1 op
    have hle := size_specExec_le m op
    obtain ⟨s', e', h'⟩ := ih h1 (by omega) (by omega)
    refine ⟨s', ?_, h'⟩
    simp only [run, e1, e', Option.bind_eq_bind, Option.bind_some, Option.pure_def, specRun]

theorem models_empty : Models ({} : QTree κ α) OrdMap.empty := ⟨.nil, spells_empty⟩

/-- **Every run from the empty tree answers as the ordered map does.**  A search takes as many turns as
    a balanced tree of that many nodes may be high. -/
theorem run_eq_specRun (cmp : CompareFunc κ) {turns clearTurns : Nat} {ops : List (Op κ α)}
    (hsize : ops.length < (turns + 3).fib) (hclear : 2 * ops.length ≤ clearTurns) :
    ∃ s, ({} : QTree κ α).run cmp turns clearTurns ops = some ((specRun OrdMap.empty ops).1, s) ∧
      Models s (specRun OrdMap.empty ops).2 := by
  have hzero : (OrdMap.empty : OrdMap κ α).size = 0 := rfl
  exact run_models cmp models_empty (by omega) (by omega)

/-- The order of the numbers. -/
def natCompare : CompareFunc Nat where
  fn key other := (key : Int) - other
  lt_iff key other := by omega
  gt_iff key other := by omega

theorem run_eq_specRun_four :
    ∃ s, ({} : QTree Nat Nat).run natCompare 2 8 [.insert 5 0, .insert 7 1, .remove 5, .get 7] =
        some ([.inserted true, .inserted true, .done, .entry (some (7, 1))], s) ∧
      Models s (specRun OrdMap.empty [.insert 5 0, .insert 7 1, .remove 5, .get 7]).2 :=
  run_eq_specRun natCompare (by decide) (by decide)

end DrbdUtils.DrbdMon.QTree
