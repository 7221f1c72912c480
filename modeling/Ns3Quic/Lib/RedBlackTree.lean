import Mathlib.Data.List.Basic

/-!
# Red-black trees with an arbitrary comparison

The search tree behind an ordered map, with the lookup, the insertion and the
rebalancing of the usual implementation, for an arbitrary Boolean comparison
of keys.  Where the comparison is a strict total order of the keys that occur,
the tree is a map.  Elsewhere the outcome depends on the shape of the tree,
which is why rebalancing is part of the model.
-/

namespace RedBlack

universe u v

inductive Color where
  | red
  | black
  deriving DecidableEq

inductive Tree (Key : Type u) (Value : Type v) where
  | leaf
  | node (color : Color) (left : Tree Key Value) (key : Key) (value : Value)
      (right : Tree Key Value)
  deriving DecidableEq

inductive Side where
  | left
  | right
  deriving DecidableEq

/-- A node above a hole in a tree; `side` says below which side the hole is. -/
structure Frame (Key : Type u) (Value : Type v) where
  side : Side
  color : Color
  key : Key
  value : Value
  sibling : Tree Key Value

variable {Key : Type u} {Value : Type v}

namespace Tree

def toList : Tree Key Value → List (Key × Value)
  | .leaf => []
  | .node _ left key value right => left.toList ++ (key, value) :: right.toList

def isRed : Tree Key Value → Bool
  | .node .red _ _ _ _ => true
  | _ => false

def blacken : Tree Key Value → Tree Key Value
  | .leaf => .leaf
  | .node _ left key value right => .node .black left key value right

@[simp]
theorem toList_blacken (tree : Tree Key Value) : tree.blacken.toList = tree.toList := by
  cases tree with
  | leaf => rfl
  | node color left key value right => rfl

/-- The first entry whose key is not less than `key`; `best` is the last entry
passed on the left so far. -/
def lowerBound (less : Key → Key → Bool) (key : Key) :
    Tree Key Value → Option (Key × Value) → Option (Key × Value)
  | .leaf, best => best
  | .node _ left nodeKey nodeValue right, best =>
      if less nodeKey key then
        right.lowerBound less key best
      else
        left.lowerBound less key (some (nodeKey, nodeValue))

def find? (less : Key → Key → Bool) (key : Key) (tree : Tree Key Value) : Option Value :=
  match tree.lowerBound less key none with
  | none => none
  | some (foundKey, foundValue) => if less key foundKey then none else some foundValue

end Tree

namespace Frame

def attach (frame : Frame Key Value) (tree : Tree Key Value) : Tree Key Value :=
  match frame.side with
  | .left => .node frame.color tree frame.key frame.value frame.sibling
  | .right => .node frame.color frame.sibling frame.key frame.value tree

def before (frame : Frame Key Value) : List (Key × Value) :=
  match frame.side with
  | .left => []
  | .right => frame.sibling.toList ++ [(frame.key, frame.value)]

def after (frame : Frame Key Value) : List (Key × Value) :=
  match frame.side with
  | .left => (frame.key, frame.value) :: frame.sibling.toList
  | .right => []

@[simp]
theorem toList_attach (frame : Frame Key Value) (tree : Tree Key Value) :
    (frame.attach tree).toList = frame.before ++ tree.toList ++ frame.after := by
  unfold attach before after
  cases frame.side with
  | left => simp [Tree.toList]
  | right => simp [Tree.toList]

end Frame

/-- Fill the hole below a path, which is listed from the hole to the root. -/
def rebuild (tree : Tree Key Value) : List (Frame Key Value) → Tree Key Value
  | [] => tree
  | frame :: rest => rebuild (frame.attach tree) rest

def before : List (Frame Key Value) → List (Key × Value)
  | [] => []
  | frame :: rest => before rest ++ frame.before

def after : List (Frame Key Value) → List (Key × Value)
  | [] => []
  | frame :: rest => frame.after ++ after rest

theorem toList_rebuild (tree : Tree Key Value) (path : List (Frame Key Value)) :
    (rebuild tree path).toList = before path ++ tree.toList ++ after path := by
  induction path generalizing tree with
  | nil => simp [rebuild, before, after]
  | cons frame rest inductionHypothesis =>
      rw [rebuild, inductionHypothesis]
      simp [before, after]

/-- The path to the place where `key` belongs. -/
def descend (less : Key → Key → Bool) (key : Key) :
    Tree Key Value → List (Frame Key Value) → List (Frame Key Value)
  | .leaf, path => path
  | .node color left nodeKey nodeValue right, path =>
      if less key nodeKey then
        descend less key left (⟨.left, color, nodeKey, nodeValue, right⟩ :: path)
      else
        descend less key right (⟨.right, color, nodeKey, nodeValue, left⟩ :: path)

def predecessor : List (Frame Key Value) → Option (Key × Value)
  | [] => none
  | frame :: rest =>
      match frame.side with
      | .left => predecessor rest
      | .right => some (frame.key, frame.value)

/-- The rotations below a red parent whose sibling is not red.  The new node is
`focus`, which is never a leaf. -/
def rotate (focus : Tree Key Value) (parent grandparent : Frame Key Value) :
    Tree Key Value :=
  match grandparent.side, parent.side, focus with
  | .left, .left, focus =>
      .node .black focus parent.key parent.value
        (.node .red parent.sibling grandparent.key grandparent.value grandparent.sibling)
  | .right, .right, focus =>
      .node .black
        (.node .red grandparent.sibling grandparent.key grandparent.value parent.sibling)
        parent.key parent.value focus
  | .left, .right, .node _ left key value right =>
      .node .black (.node .red parent.sibling parent.key parent.value left) key value
        (.node .red right grandparent.key grandparent.value grandparent.sibling)
  | .right, .left, .node _ left key value right =>
      .node .black
        (.node .red grandparent.sibling grandparent.key grandparent.value left) key value
        (.node .red right parent.key parent.value parent.sibling)
  | _, _, .leaf => grandparent.attach (parent.attach .leaf)

/-- Restore the colours above a red `focus`. -/
def rebalance (focus : Tree Key Value) : List (Frame Key Value) → Tree Key Value
  | [] => focus.blacken
  | [parent] => (parent.attach focus).blacken
  | parent :: grandparent :: rest =>
      match parent.color with
      | .black => (rebuild (grandparent.attach (parent.attach focus)) rest).blacken
      | .red =>
          if grandparent.sibling.isRed then
            rebalance
              ({ grandparent with
                  color := .red, sibling := grandparent.sibling.blacken }.attach
                ({ parent with color := .black }.attach focus)) rest
          else
            (rebuild (rotate focus parent grandparent) rest).blacken

/-- Insert an entry unless one with an equivalent key is found.  The Boolean
says whether the entry was inserted.  The place is found as `insert` of libstdc++
finds it before C++17: down to a leaf, and then one comparison with the
predecessor; later versions search with `lower_bound` first. -/
def insert (less : Key → Key → Bool) (key : Key) (value : Value) (tree : Tree Key Value) :
    Tree Key Value × Bool :=
  let path := descend less key tree []
  let inserted := rebalance (.node .red .leaf key value .leaf) path
  match predecessor path with
  | none => (inserted, true)
  | some (foundKey, _) => if less foundKey key then (inserted, true) else (tree, false)

/-! ## Rebalancing keeps the entries -/

theorem toList_rotate (focus : Tree Key Value) (parent grandparent : Frame Key Value) :
    (rotate focus parent grandparent).toList =
      (grandparent.attach (parent.attach focus)).toList := by
  obtain ⟨outer, _, _, _, _⟩ := grandparent
  obtain ⟨inner, _, _, _, _⟩ := parent
  cases outer with
  | left =>
      cases inner with
      | left => simp [rotate, Frame.attach, Tree.toList]
      | right =>
          cases focus with
          | leaf => rfl
          | node => simp [rotate, Frame.attach, Tree.toList]
  | right =>
      cases inner with
      | left =>
          cases focus with
          | leaf => rfl
          | node => simp [rotate, Frame.attach, Tree.toList]
      | right => simp [rotate, Frame.attach, Tree.toList]

theorem toList_recolor (focus : Tree Key Value) (parent grandparent : Frame Key Value)
    (outer inner : Color) :
    ({ grandparent with color := outer, sibling := grandparent.sibling.blacken }.attach
        ({ parent with color := inner }.attach focus)).toList =
      (grandparent.attach (parent.attach focus)).toList := by
  simp [Frame.before, Frame.after]

theorem toList_rebalance (focus : Tree Key Value) (path : List (Frame Key Value)) :
    (rebalance focus path).toList = (rebuild focus path).toList := by
  induction focus, path using rebalance.induct with
  | case1 focus => simp [rebalance, rebuild]
  | case2 focus parent => simp [rebalance, rebuild]
  | case3 focus parent grandparent rest color => simp [rebalance, rebuild, color]
  | case4 focus parent grandparent rest color uncle inductionHypothesis =>
      rw [rebalance, color]
      dsimp only
      rw [if_pos uncle, inductionHypothesis, rebuild, rebuild, toList_rebuild, toList_rebuild,
        toList_recolor]
  | case5 focus parent grandparent rest color uncle =>
      rw [rebalance, color]
      dsimp only
      rw [if_neg uncle, Tree.toList_blacken, rebuild, rebuild, toList_rebuild, toList_rebuild,
        toList_rotate]

/-! ## The path of an insertion -/

theorem rebuild_descend (less : Key → Key → Bool) (key : Key) (tree : Tree Key Value)
    (path : List (Frame Key Value)) :
    rebuild .leaf (descend less key tree path) = rebuild tree path := by
  induction tree generalizing path with
  | leaf => rfl
  | node color left nodeKey nodeValue right leftHypothesis rightHypothesis =>
      rw [descend]
      split
      next => exact leftHypothesis _
      next => exact rightHypothesis _

theorem toList_eq_of_descend (less : Key → Key → Bool) (key : Key) (tree : Tree Key Value) :
    tree.toList = before (descend less key tree []) ++ after (descend less key tree []) := by
  have shape := congrArg Tree.toList (rebuild_descend less key tree [])
  rw [toList_rebuild] at shape
  simpa [rebuild, Tree.toList] using shape.symm

theorem predecessor_eq (path : List (Frame Key Value)) :
    predecessor path = (before path).getLast? := by
  induction path with
  | nil => rfl
  | cons frame rest inductionHypothesis =>
      obtain ⟨side, _, _, _, _⟩ := frame
      cases side with
      | left => simpa [predecessor, before, Frame.before] using inductionHypothesis
      | right => simp [predecessor, before, Frame.before]

/-! ## Strict total orders -/

structure StrictTotalOn (less : Key → Key → Bool) (members : Key → Prop) : Prop where
  irrefl : ∀ first, members first → less first first = false
  trans : ∀ first second third, members first → members second → members third →
    less first second = true → less second third = true → less first third = true
  total : ∀ first second, members first → members second →
    less first second = false → less second first = false → first = second

structure Ordered (less : Key → Key → Bool) (members : Key → Prop) (tree : Tree Key Value) :
    Prop where
  sorted : tree.toList.Pairwise fun first second => less first.1 second.1 = true
  mem : ∀ entry ∈ tree.toList, members entry.1

section Map

variable {less : Key → Key → Bool} {members : Key → Prop} {key : Key} {value : Value}
  {tree : Tree Key Value}

theorem ordered_leaf : Ordered less members (.leaf : Tree Key Value) :=
  ⟨List.Pairwise.nil, by simp [Tree.toList]⟩

namespace Ordered

variable {color : Color} {left right : Tree Key Value} {nodeKey : Key} {nodeValue : Value}

theorem leftChild (ordered : Ordered less members (.node color left nodeKey nodeValue right)) :
    Ordered less members left := by
  obtain ⟨sorted, mem⟩ := ordered
  exact ⟨(List.pairwise_append.mp sorted).1,
    fun entry membership => mem entry (List.mem_append_left _ membership)⟩

theorem rightChild (ordered : Ordered less members (.node color left nodeKey nodeValue right)) :
    Ordered less members right := by
  obtain ⟨sorted, mem⟩ := ordered
  exact ⟨(List.pairwise_cons.mp (List.pairwise_append.mp sorted).2.1).2,
    fun entry membership =>
      mem entry (List.mem_append_right _ (List.mem_cons_of_mem _ membership))⟩

theorem root_mem (ordered : Ordered less members (.node color left nodeKey nodeValue right)) :
    members nodeKey :=
  ordered.mem (nodeKey, nodeValue) (List.mem_append_right _ List.mem_cons_self)

theorem left_less (ordered : Ordered less members (.node color left nodeKey nodeValue right))
    {entry : Key × Value} (membership : entry ∈ left.toList) :
    less entry.1 nodeKey = true :=
  (List.pairwise_append.mp ordered.sorted).2.2 entry membership _ List.mem_cons_self

theorem less_right (ordered : Ordered less members (.node color left nodeKey nodeValue right))
    {entry : Key × Value} (membership : entry ∈ right.toList) :
    less nodeKey entry.1 = true :=
  (List.pairwise_cons.mp (List.pairwise_append.mp ordered.sorted).2.1).1 entry membership

end Ordered

theorem lowerBound_eq (order : StrictTotalOn less members) (keyMember : members key)
    (ordered : Ordered less members tree) (best : Option (Key × Value)) :
    tree.lowerBound less key best =
      (tree.toList.find? fun entry => !less entry.1 key).or best := by
  induction tree generalizing best with
  | leaf => rfl
  | node color left nodeKey nodeValue right leftHypothesis rightHypothesis =>
      rw [Tree.lowerBound, Tree.toList, List.find?_append]
      split
      next smaller =>
        have notLeft : (left.toList.find? fun entry => !less entry.1 key) = none := by
          rw [List.find?_eq_none]
          intro entry membership
          have entryLess := order.trans entry.1 nodeKey key
            (ordered.leftChild.mem entry membership) ordered.root_mem keyMember
            (ordered.left_less membership) smaller
          simp [entryLess]
        rw [rightHypothesis ordered.rightChild, notLeft, List.find?_cons_of_neg (by simp [smaller])]
        rfl
      next larger =>
        rw [leftHypothesis ordered.leftChild, List.find?_cons_of_pos (by simpa using larger)]
        cases left.toList.find? fun entry => !less entry.1 key with
        | none => rfl
        | some entry => rfl

theorem find?_eq_some_iff (order : StrictTotalOn less members) (keyMember : members key)
    (ordered : Ordered less members tree) :
    tree.find? less key = some value ↔ (key, value) ∈ tree.toList := by
  unfold Tree.find?
  rw [lowerBound_eq order keyMember ordered none, Option.or_none]
  constructor
  · intro found
    cases search : tree.toList.find? fun entry => !less entry.1 key with
    | none => simp [search] at found
    | some entry =>
        simp only [search] at found
        split at found
        next => cases found
        next notAbove =>
          have membership := List.mem_of_find?_eq_some search
          have notBelow := List.find?_some search
          have same : entry.1 = key := order.total _ _ (ordered.mem entry membership) keyMember
            (by simpa using notBelow) (by simpa using notAbove)
          rw [← same, ← Option.some.inj found]
          exact membership
  · intro membership
    obtain ⟨front, back, shape⟩ := List.append_of_mem membership
    have sorted := ordered.sorted
    rw [shape] at sorted
    have noneInFront : (front.find? fun entry => !less entry.1 key) = none := by
      rw [List.find?_eq_none]
      intro entry inFront
      have entryLess :=
        (List.pairwise_append.mp sorted).2.2 entry inFront _ List.mem_cons_self
      simpa using entryLess
    have irrefl := order.irrefl key keyMember
    rw [shape, List.find?_append, noneInFront, List.find?_cons_of_pos (by simp [irrefl])]
    simp [irrefl]

theorem find?_eq_none_iff (order : StrictTotalOn less members) (keyMember : members key)
    (ordered : Ordered less members tree) :
    tree.find? less key = none ↔ ∀ value, (key, value) ∉ tree.toList := by
  rw [Option.eq_none_iff_forall_ne_some]
  exact forall_congr' fun value => not_congr (find?_eq_some_iff order keyMember ordered)

theorem lowerBound_eq_some {entry : Key × Value} {best : Option (Key × Value)}
    (found : tree.lowerBound less key best = some entry) :
    best = some entry ∨ entry ∈ tree.toList ∧ less entry.1 key = false := by
  induction tree generalizing best with
  | leaf => exact .inl found
  | node color left nodeKey nodeValue right leftHypothesis rightHypothesis =>
      rw [Tree.lowerBound] at found
      rw [Tree.toList, List.mem_append, List.mem_cons]
      split at found
      next =>
        rcases rightHypothesis found with before | ⟨membership, notBelow⟩
        · exact .inl before
        · exact .inr ⟨.inr (.inr membership), notBelow⟩
      next notBelowNode =>
        rcases leftHypothesis found with here | ⟨membership, notBelow⟩
        · cases here
          exact .inr ⟨.inr (.inl rfl), by simpa using notBelowNode⟩
        · exact .inr ⟨.inl membership, notBelow⟩

/-- What a lookup returns is an entry of the key, in whatever order the tree is,
if the comparison tells any two keys apart. -/
theorem mem_of_find?_eq_some
    (separates : ∀ first second, less first second = false → less second first = false →
      first = second)
    (found : tree.find? less key = some value) : (key, value) ∈ tree.toList := by
  unfold Tree.find? at found
  split at found
  next => cases found
  next foundKey foundValue search =>
    split at found
    next => cases found
    next notAbove =>
      rcases lowerBound_eq_some search with impossible | ⟨membership, notBelow⟩
      · cases impossible
      · have same : foundKey = key := separates foundKey key notBelow (by simpa using notAbove)
        rw [← same, ← Option.some.inj found]
        exact membership

/-- The second of two keys that are each less than the other goes where the
lookup does not find it. -/
theorem find?_insert_of_cycle {first second : Key} (ascending : less first second = true)
    (descending : less second first = true) (firstValue secondValue : Value) :
    (insert less second secondValue (insert less first firstValue .leaf).1).1.find? less second =
      none := by
  simp [insert, descend, predecessor, rebalance, Tree.find?, Tree.lowerBound, Frame.attach,
    Tree.blacken, ascending, descending]

theorem descend_separates (order : StrictTotalOn less members) (keyMember : members key)
    (ordered : Ordered less members tree) (path : List (Frame Key Value))
    (below : ∀ entry ∈ before path, less key entry.1 = false)
    (above : ∀ entry ∈ after path, less key entry.1 = true) :
    (∀ entry ∈ before (descend less key tree path), less key entry.1 = false) ∧
      ∀ entry ∈ after (descend less key tree path), less key entry.1 = true := by
  induction tree generalizing path with
  | leaf => exact ⟨below, above⟩
  | node color left nodeKey nodeValue right leftHypothesis rightHypothesis =>
      rw [descend]
      split
      next smaller =>
        apply leftHypothesis ordered.leftChild
        · simpa [before, Frame.before] using below
        · intro entry membership
          simp only [after, Frame.after, List.cons_append, List.mem_cons,
            List.mem_append] at membership
          rcases membership with rfl | inRight | inPath
          · exact smaller
          · exact order.trans _ _ _ keyMember ordered.root_mem
              (ordered.rightChild.mem entry inRight) smaller (ordered.less_right inRight)
          · exact above entry inPath
      next larger =>
        apply rightHypothesis ordered.rightChild
        · intro entry membership
          simp only [before, Frame.before, List.mem_append, List.mem_singleton] at membership
          rcases membership with inPath | inLeft | rfl
          · exact below entry inPath
          · by_contra smaller
            have entryBelow := order.trans _ _ _ keyMember (ordered.leftChild.mem entry inLeft)
              ordered.root_mem (by simpa using smaller) (ordered.left_less inLeft)
            exact larger entryBelow
          · simpa using larger
        · simpa [after, Frame.after] using above

theorem toList_inserted (less : Key → Key → Bool) (key : Key) (value : Value)
    (tree : Tree Key Value) :
    (rebalance (.node .red .leaf key value .leaf) (descend less key tree [])).toList =
      before (descend less key tree []) ++ (key, value) ::
        after (descend less key tree []) := by
  rw [toList_rebalance, toList_rebuild]
  simp [Tree.toList]

theorem insert_of_fresh (order : StrictTotalOn less members) (keyMember : members key)
    (value : Value) (ordered : Ordered less members tree)
    (fresh : ∀ other, (key, other) ∉ tree.toList) :
    (insert less key value tree).2 = true ∧
      Ordered less members (insert less key value tree).1 ∧
      ∀ entry, entry ∈ (insert less key value tree).1.toList ↔
        entry = (key, value) ∨ entry ∈ tree.toList := by
  obtain ⟨below, above⟩ := descend_separates order keyMember ordered []
    (by simp [before]) (by simp [after])
  have shape := toList_eq_of_descend less key tree
  have sorted := ordered.sorted
  rw [shape] at sorted
  obtain ⟨sortedBefore, sortedAfter, across⟩ := List.pairwise_append.mp sorted
  -- an entry before the hole is not above the key, and not the key itself
  have lessKey : ∀ entry ∈ before (descend less key tree []), less entry.1 key = true := by
    intro entry membership
    have inTree : entry ∈ tree.toList := by
      rw [shape]
      exact List.mem_append_left _ membership
    by_contra notLess
    have same := order.total _ _ (ordered.mem entry inTree) keyMember
      (by simpa using notLess) (below entry membership)
    exact fresh entry.2 (by rw [← same]; exact inTree)
  have taken : insert less key value tree =
      (rebalance (.node .red .leaf key value .leaf) (descend less key tree []), true) := by
    unfold insert
    dsimp only
    rw [predecessor_eq]
    cases last : (before (descend less key tree [])).getLast? with
    | none => rfl
    | some entry => simp [lessKey entry (List.mem_of_getLast? last)]
  have mem : ∀ entry, entry ∈ (insert less key value tree).1.toList ↔
      entry = (key, value) ∨ entry ∈ tree.toList := by
    intro entry
    rw [taken, toList_inserted, shape]
    simp only [List.mem_append, List.mem_cons]
    tauto
  refine ⟨by rw [taken], ⟨?_, ?_⟩, mem⟩
  · rw [taken, toList_inserted, List.pairwise_append, List.pairwise_cons]
    refine ⟨sortedBefore, ⟨above, sortedAfter⟩, ?_⟩
    intro entry membership other inRest
    rcases List.mem_cons.mp inRest with rfl | inAfter
    · exact lessKey entry membership
    · exact across entry membership other inAfter
  · intro entry membership
    rcases (mem entry).mp membership with rfl | old
    · exact keyMember
    · exact ordered.mem entry old

end Map

end RedBlack
