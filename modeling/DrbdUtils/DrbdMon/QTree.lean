import DrbdUtils.Lib.AvlTree
import Mathlib.Order.Defs.LinearOrder

/-!
# The search tree of drbdmon

`cppdsaext/src/QTree.h`: a binary search tree with parent pointers and stored balances, which the maps
of drbdmon are.  A node is known by its address; `none` is the null pointer.  A function without a
result has dereferenced the null pointer or a node that is gone, or has used up its turns: each loop
gets a number of turns, and `QTreeMap` shows how few are enough.

The code for the two directions is written twice in the source; here it has the direction as a parameter,
`less` for "rotate R" and "rotate LR", `greater` for "rotate L" and "rotate RL".
-/

set_option autoImplicit false

namespace DrbdUtils.DrbdMon

open Lib.AvlTree (Dir)

/-- Where a node is. -/
abbrev Ptr := Nat

namespace QTree

/-- `QTree::Node`. -/
structure Node (κ α : Type) where
  key : κ
  value : α
  less : Option Ptr := none
  greater : Option Ptr := none
  parent : Option Ptr := none
  balance : Int := 0

variable {κ α : Type}

def Node.child (n : Node κ α) : Dir → Option Ptr
  | .less => n.less
  | .greater => n.greater

def Node.setChild (n : Node κ α) (d : Dir) (p : Option Ptr) : Node κ α :=
  match d with
  | .less => { n with less := p }
  | .greater => { n with greater := p }

/-- `compare_func`, for an order of the keys. -/
structure CompareFunc (κ : Type) [LinearOrder κ] where
  fn : κ → κ → Int
  lt_iff : ∀ key other, fn key other < 0 ↔ key < other
  gt_iff : ∀ key other, 0 < fn key other ↔ other < key

end QTree

open QTree

/-- `QTree`, with the nodes that exist and the address the next node will have. -/
structure QTree (κ α : Type) where
  nodes : Ptr → Option (Node κ α) := fun _ => none
  root : Option Ptr := none
  size : Nat := 0
  nextPtr : Ptr := 0

namespace QTree

variable {κ α : Type}

/-- Change a node in place. -/
def upd (s : QTree κ α) (p : Ptr) (f : Node κ α → Node κ α) : Option (QTree κ α) :=
  (s.nodes p).map fun n => { s with nodes := Function.update s.nodes p (some (f n)) }

def setBalance (s : QTree κ α) (p : Ptr) (b : Int) : Option (QTree κ α) :=
  s.upd p fun n => { n with balance := b }

/-- `if (node != nullptr) { node->parent = parent; }` -/
def setParent (s : QTree κ α) (node parent : Option Ptr) : Option (QTree κ α) :=
  match node with
  | none => some s
  | some p => s.upd p fun n => { n with parent := parent }

/-- The side of `parent` that `node` is on. -/
def side (s : QTree κ α) (parent node : Ptr) : Option Dir :=
  (s.nodes parent).map fun n => if n.less = some node then .less else .greater

/-- Where `parent`, or the root, points to `node`, make it point to `other`. -/
def replaceChild (s : QTree κ α) (parent : Option Ptr) (node : Ptr) (other : Option Ptr) :
    Option (QTree κ α) :=
  match parent with
  | none => some { s with root := other }
  | some q => do
    let dir ← s.side q node
    s.upd q fun n => n.setChild dir other

/-! ## Rotations -/

/-- The pointers of "rotate R" and "rotate L". -/
def rotate (d : Dir) (s : QTree κ α) (rotNode subNode : Ptr) : Option (QTree κ α) := do
  let parent := (← s.nodes rotNode).parent
  let s ← s.upd subNode fun n => { n with parent := parent }
  let s ← s.replaceChild parent rotNode (some subNode)
  let inner := (← s.nodes subNode).child d.opp
  let s ← s.upd rotNode fun n => n.setChild d inner
  let s ← s.setParent inner (some rotNode)
  let s ← s.upd subNode fun n => n.setChild d.opp (some rotNode)
  s.upd rotNode fun n => { n with parent := some subNode }

/-- "rotate LR" and "rotate RL". -/
def rotateDouble (d : Dir) (s : QTree κ α) (rotNode subNode : Ptr) : Option (QTree κ α) := do
  let top ← (← s.nodes subNode).child d.opp
  let balance := (← s.nodes top).balance
  let s ← s.setBalance subNode (if balance = -d.sign then d.sign else 0)
  let s ← s.setBalance rotNode (if balance = d.sign then -d.sign else 0)
  let s ← s.setBalance top 0
  let parent := (← s.nodes rotNode).parent
  let near := (← s.nodes top).child d
  let far := (← s.nodes top).child d.opp
  let s ← s.upd subNode fun n => { n with parent := some top }
  let s ← s.upd subNode fun n => n.setChild d.opp near
  let s ← s.upd top fun n => n.setChild d (some subNode)
  let s ← s.upd rotNode fun n => n.setChild d far
  let s ← s.upd top fun n => { n with parent := parent }
  let s ← s.setParent near (some subNode)
  let s ← s.setParent far (some rotNode)
  let s ← s.replaceChild parent rotNode (some top)
  let s ← s.upd rotNode fun n => { n with parent := some top }
  s.upd top fun n => n.setChild d.opp (some rotNode)

/-- The rotation of `rebalance_insert`. -/
def rotateInsert (d : Dir) (s : QTree κ α) (rotNode subNode : Ptr) : Option (QTree κ α) := do
  if (← s.nodes subNode).balance = d.sign then
    let s ← s.setBalance rotNode 0
    let s ← s.setBalance subNode 0
    s.rotate d rotNode subNode
  else
    s.rotateDouble d rotNode subNode

/-- The rotation of `rebalance_remove`, and whether the walk goes on. -/
def rotateRemove (d : Dir) (s : QTree κ α) (rotNode : Ptr) : Option (QTree κ α × Bool) := do
  let subNode ← (← s.nodes rotNode).child d
  let balance := (← s.nodes subNode).balance
  if 0 ≤ d.sign * balance then
    let s ← s.rotate d rotNode subNode
    if balance = 0 then
      let s ← s.setBalance rotNode d.sign
      let s ← s.setBalance subNode (-d.sign)
      return (s, false)
    else
      let s ← s.setBalance rotNode 0
      let s ← s.setBalance subNode 0
      return (s, true)
  else
    let s ← s.rotateDouble d rotNode subNode
    return (s, true)

/-- `rebalance_insert`. -/
def rebalanceInsert : Nat → QTree κ α → Ptr → Ptr → Option (QTree κ α)
  | 0, _, _, _ => none
  | turns + 1, s, subNode, rotNode => do
    let n ← s.nodes rotNode
    let balance := if n.less = some subNode then n.balance - 1 else n.balance + 1
    let s ← s.setBalance rotNode balance
    if balance = 0 then
      return s
    else if balance = -2 then
      s.rotateInsert .less rotNode subNode
    else if balance = 2 then
      s.rotateInsert .greater rotNode subNode
    else
      match n.parent with
      | none => return s
      | some parent => rebalanceInsert turns s rotNode parent

/-- `rebalance_remove`. -/
def rebalanceRemove : Nat → QTree κ α → Dir → Option Ptr → Option (QTree κ α)
  | _, s, _, none => some s
  | 0, _, _, some _ => none
  | turns + 1, s, dir, some rotNode => do
    let n ← s.nodes rotNode
    let balance := n.balance - dir.sign
    let s ← s.setBalance rotNode balance
    if balance = -dir.sign then
      return s
    else
      let dir ← match n.parent with
        | none => some dir
        | some parent => s.side parent rotNode
      if balance = -2 ∨ balance = 2 then
        let (s, more) ← s.rotateRemove (if balance = -2 then .less else .greater) rotNode
        if more then
          let top ← (← s.nodes rotNode).parent
          rebalanceRemove turns s dir (← s.nodes top).parent
        else
          return s
      else
        rebalanceRemove turns s dir n.parent

/-! ## Search -/

/-- The last node of a path in one direction. -/
def outermost (s : QTree κ α) (d : Dir) : Nat → Ptr → Option Ptr
  | 0, _ => none
  | turns + 1, p => do
    match (← s.nodes p).child d with
    | none => return p
    | some q => s.outermost d turns q

/-- `while (node->parent != nullptr && node->parent->CHILD == node) { node = node->parent; }` and
    one more step. -/
def climb (s : QTree κ α) (d : Dir) : Nat → Ptr → Option (Option Ptr)
  | 0, _ => none
  | turns + 1, p => do
    match (← s.nodes p).parent with
    | none => return none
    | some q =>
      if (← s.nodes q).child d = some p then
        s.climb d turns q
      else
        return some q

/-- `find_first_node` and `find_last_node`. -/
def findEnd (turns : Nat) (s : QTree κ α) (d : Dir) : Option (Option Ptr) :=
  match s.root with
  | none => some none
  | some p => (s.outermost d turns p).map some

def findFirstNode (turns : Nat) (s : QTree κ α) : Option (Option Ptr) := s.findEnd turns .less

def findLastNode (turns : Nat) (s : QTree κ α) : Option (Option Ptr) := s.findEnd turns .greater

section Compare

variable [LinearOrder κ] (cmp : CompareFunc κ)

/-- The loop of `find_node`. -/
def findFrom (s : QTree κ α) (key : κ) : Nat → Option Ptr → Option (Option Ptr)
  | _, none => some none
  | 0, some _ => none
  | turns + 1, some p => do
    let n ← s.nodes p
    if cmp.fn key n.key < 0 then
      s.findFrom key turns n.less
    else if 0 < cmp.fn key n.key then
      s.findFrom key turns n.greater
    else
      return some p

def findNode (turns : Nat) (s : QTree κ α) (key : κ) : Option (Option Ptr) :=
  s.findFrom cmp key turns s.root

/-- `get_entry`. -/
def getEntry (turns : Nat) (s : QTree κ α) (key : κ) : Option (Option (κ × α)) := do
  match ← s.findNode cmp turns key with
  | none => return none
  | some p =>
    let n ← s.nodes p
    return some (n.key, n.value)

/-- The loops of `find_ceiling_node_impl` and `find_greater_node_impl` (`d` is `less`), and of
    `find_floor_node_impl` and `find_less_node_impl` (`d` is `greater`).  With `orEqual` a node with the
    key itself is an answer; without, the search goes on to the other side of `d`. -/
def findNearFrom (s : QTree κ α) (d : Dir) (orEqual : Bool) (climbTurns : Nat) (key : κ) :
    Nat → Ptr → Option (Option Ptr)
  | 0, _ => none
  | turns + 1, p => do
    let n ← s.nodes p
    let rc := cmp.fn key n.key
    if 0 < d.sign * rc then
      match n.child d with
      | some q => s.findNearFrom d orEqual climbTurns key turns q
      | none => return some p
    else if d.sign * rc < 0 ∨ orEqual = false then
      match n.child d.opp with
      | some q => s.findNearFrom d orEqual climbTurns key turns q
      | none => s.climb d.opp climbTurns p
    else
      return some p

def findNear (turns : Nat) (s : QTree κ α) (d : Dir) (orEqual : Bool) (key : κ) : Option (Option Ptr) :=
  match s.root with
  | none => some none
  | some p => s.findNearFrom cmp d orEqual turns key turns p

def findCeilingNodeImpl (turns : Nat) (s : QTree κ α) (key : κ) : Option (Option Ptr) :=
  s.findNear cmp turns .less true key

def findFloorNodeImpl (turns : Nat) (s : QTree κ α) (key : κ) : Option (Option Ptr) :=
  s.findNear cmp turns .greater true key

def findGreaterNodeImpl (turns : Nat) (s : QTree κ α) (key : κ) : Option (Option Ptr) :=
  s.findNear cmp turns .less false key

def findLessNodeImpl (turns : Nat) (s : QTree κ α) (key : κ) : Option (Option Ptr) :=
  s.findNear cmp turns .greater false key

/-! ## Insertion -/

/-- `insert_node_impl`: the pointer that `ref_ins_node` refers to is a child of `parent_node`, or the
    root. -/
def insertNodeImpl (turns : Nat) (s : QTree κ α) (ref : Option (Ptr × Dir)) (key : κ) (value : α) :
    Option (QTree κ α) := do
  let insNode := s.nextPtr
  let n : Node κ α := { key := key, value := value }
  let s := { s with nodes := Function.update s.nodes insNode (some n), nextPtr := s.nextPtr + 1 }
  let s ← match ref with
    | none => some { s with root := some insNode }
    | some (parentNode, d) => s.upd parentNode fun n => n.setChild d (some insNode)
  let s ← s.upd insNode fun n => { n with parent := ref.map Prod.fst }
  let s := { s with size := s.size + 1 }
  match ref with
  | none => return s
  | some (parentNode, _) => s.rebalanceInsert turns insNode parentNode

/-- What the search for the place of a new key comes to. -/
inductive Place where
  | at (ref : Option (Ptr × Dir))
  | found (p : Ptr)
  deriving DecidableEq

/-- The loop of `insert` and `insert_or_update`. -/
def placeFrom (s : QTree κ α) (key : κ) : Nat → Ptr → Option Place
  | 0, _ => none
  | turns + 1, parentNode => do
    let n ← s.nodes parentNode
    if cmp.fn key n.key < 0 then
      match n.less with
      | none => return .at (some (parentNode, .less))
      | some q => s.placeFrom key turns q
    else if 0 < cmp.fn key n.key then
      match n.greater with
      | none => return .at (some (parentNode, .greater))
      | some q => s.placeFrom key turns q
    else
      return .found parentNode

def place (turns : Nat) (s : QTree κ α) (key : κ) : Option Place :=
  match s.root with
  | none => some (.at none)
  | some p => s.placeFrom cmp key turns p

/-- `insert`; `false` when it throws `DuplicateInsertException`. -/
def insert (turns : Nat) (s : QTree κ α) (key : κ) (value : α) : Option (Bool × QTree κ α) := do
  match ← s.place cmp turns key with
  | .at ref =>
    let s ← s.insertNodeImpl turns ref key value
    return (true, s)
  | .found _ => return (false, s)

/-- `insert_or_update`, with the previous value. -/
def insertOrUpdate (turns : Nat) (s : QTree κ α) (key : κ) (value : α) :
    Option (Option α × QTree κ α) := do
  match ← s.place cmp turns key with
  | .at ref =>
    let s ← s.insertNodeImpl turns ref key value
    return (none, s)
  | .found p =>
    let prevValue := (← s.nodes p).value
    let s ← s.upd p fun n => { n with value := value }
    return (some prevValue, s)

/-- `update`, with the previous value. -/
def update (turns : Nat) (s : QTree κ α) (key : κ) (value : α) : Option (Option α × QTree κ α) := do
  match ← s.findNode cmp turns key with
  | none => return (none, s)
  | some p =>
    let prevValue := (← s.nodes p).value
    let s ← s.upd p fun n => { n with value := value }
    return (some prevValue, s)

end Compare

/-! ## Removal -/

/-- The end of `unlink_node_impl`, for a node with children: `replaceNode` is taken out of its place,
    which its child gets, and replaces `rmNode`. -/
def replaceBy (turns : Nat) (s : QTree κ α) (rmNode replaceNode : Ptr) : Option (QTree κ α) := do
  let r ← s.nodes replaceNode
  let rotNode ← r.parent
  let dir ← s.side rotNode replaceNode
  let child := r.less.or r.greater
  let s ← s.upd rotNode fun n => n.setChild dir child
  let s ← s.setParent child (some rotNode)
  -- replace rm_node with replace_node
  let n ← s.nodes rmNode
  let s ← s.replaceChild n.parent rmNode (some replaceNode)
  let s ← s.setParent n.less (some replaceNode)
  let s ← s.setParent n.greater (some replaceNode)
  let s ← s.upd replaceNode fun r =>
    { r with parent := n.parent, less := n.less, greater := n.greater, balance := n.balance }
  s.rebalanceRemove turns dir (some (if rotNode = rmNode then replaceNode else rotNode))

/-- `unlink_node_impl`. -/
def unlinkNodeImpl (turns : Nat) (s : QTree κ α) (rmNode : Ptr) : Option (QTree κ α) := do
  let s := { s with size := s.size - 1 }
  let n ← s.nodes rmNode
  if n.less = none ∧ n.greater = none then
    if s.root = some rmNode then
      return { s with root := none }
    else
      let rotNode ← n.parent
      let dir ← s.side rotNode rmNode
      let s ← s.upd rotNode fun n => n.setChild dir none
      s.rebalanceRemove turns dir (some rotNode)
  else if n.balance = -1 then
    s.replaceBy turns rmNode (← s.outermost .greater turns (← n.less))
  else
    s.replaceBy turns rmNode (← s.outermost .less turns (← n.greater))

/-- `delete` of a node. -/
def delete (s : QTree κ α) (p : Ptr) : Option (QTree κ α) :=
  (s.nodes p).map fun _ => { s with nodes := Function.update s.nodes p none }

/-- `remove_node_impl`. -/
def removeNodeImpl (turns : Nat) (s : QTree κ α) (rmNode : Ptr) : Option (QTree κ α) := do
  let s ← s.unlinkNodeImpl turns rmNode
  s.delete rmNode

/-- `remove`. -/
def remove [LinearOrder κ] (cmp : CompareFunc κ) (turns : Nat) (s : QTree κ α) (key : κ) :
    Option (QTree κ α) := do
  match ← s.findNode cmp turns key with
  | none => return s
  | some p => s.removeNodeImpl turns p

/-- The loop of `clear_impl`. -/
def clearFrom : Nat → QTree κ α → Option Ptr → Option (QTree κ α)
  | _, s, none => some s
  | 0, _, some _ => none
  | turns + 1, s, some node => do
    let n ← s.nodes node
    match n.less, n.greater with
    | some p, _ => clearFrom turns s (some p)
    | none, some p => clearFrom turns s (some p)
    | none, none =>
      let s ← match n.parent with
        | none => some s
        | some parent => do
          let dir ← s.side parent node
          s.upd parent fun n => n.setChild dir none
      let s ← s.delete node
      clearFrom turns s n.parent

/-- `clear`. -/
def clear (turns : Nat) (s : QTree κ α) : Option (QTree κ α) := do
  let s ← clearFrom turns s s.root
  return { s with root := none, size := 0 }

/-! ## Iteration -/

/-- `BaseIterator::next_node` (`d` is `less`) and `BaseReverseIterator::next_node` (`greater`): the node
    that is returned, and where the iterator is then. -/
def nextNode (turns : Nat) (s : QTree κ α) (d : Dir) (iterNode : Option Ptr) :
    Option (Option Ptr × Option Ptr) :=
  match iterNode with
  | none => some (none, none)
  | some p => do
    match (← s.nodes p).child d.opp with
    | some q => return (some p, some (← s.outermost d turns q))
    | none => return (some p, ← s.climb d.opp turns p)

/-- The nodes that `count` calls of `next` return, for an iterator at `iterNode`. -/
def iterate (turns : Nat) (s : QTree κ α) (d : Dir) : Nat → Option Ptr → Option (List (Option Ptr))
  | 0, _ => some []
  | count + 1, iterNode => do
    let (ret, iterNode) ← s.nextNode turns d iterNode
    return ret :: (← s.iterate turns d count iterNode)

end QTree

end DrbdUtils.DrbdMon
