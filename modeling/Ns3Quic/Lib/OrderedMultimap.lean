import Mathlib.Data.List.Nodup
import Mathlib.Data.List.Pairwise
import Mathlib.Data.List.Perm.Basic
import Mathlib.Data.List.TakeWhile
import Mathlib.Order.Lattice

/-!
# Ordered multimaps with stable iterators

The container keeps its nodes sorted by key and puts a new node behind all
nodes of an equal key.  Every node carries an identity which is never used
again, so an iterator is the identity of the node it points to and erasing a
node leaves the iterators to all other nodes valid.
-/

namespace OrderedMultimap

universe u v

variable {Key : Type u} {Value : Type v}

structure Node (Key : Type u) (Value : Type v) where
  key : Key
  id : Nat
  value : Value
  deriving DecidableEq

/-- Iteration order: by key, and by age among equal keys. -/
def Node.Before [LT Key] (left right : Node Key Value) : Prop :=
  left.key < right.key ∨ left.key = right.key ∧ left.id < right.id

/-- The position behind the last node whose key is not larger. -/
def insertNode [LT Key] [DecidableLT Key] (node : Node Key Value) :
    List (Node Key Value) → List (Node Key Value)
  | [] => [node]
  | head :: tail =>
      if node.key < head.key then
        node :: head :: tail
      else
        head :: insertNode node tail

theorem insertNode_perm [LT Key] [DecidableLT Key]
    (node : Node Key Value) (nodes : List (Node Key Value)) :
    List.Perm (insertNode node nodes) (node :: nodes) := by
  induction nodes with
  | nil => exact List.Perm.refl _
  | cons head tail inductionHypothesis =>
      by_cases earlier : node.key < head.key
      · simp [insertNode, earlier]
      · simp only [insertNode, earlier, if_false]
        exact (inductionHypothesis.cons head).trans (List.Perm.swap _ _ _)

@[simp]
theorem mem_insertNode_iff [LT Key] [DecidableLT Key]
    (node other : Node Key Value) (nodes : List (Node Key Value)) :
    other ∈ insertNode node nodes ↔ other = node ∨ other ∈ nodes := by
  rw [(insertNode_perm node nodes).mem_iff, List.mem_cons]

theorem pairwise_insertNode [LinearOrder Key]
    (node : Node Key Value) (nodes : List (Node Key Value))
    (ordered : nodes.Pairwise Node.Before)
    (newest : ∀ other ∈ nodes, other.id < node.id) :
    (insertNode node nodes).Pairwise Node.Before := by
  induction nodes with
  | nil => simp [insertNode]
  | cons head tail inductionHypothesis =>
      have headBefore := (List.pairwise_cons.mp ordered).1
      have tailOrdered := (List.pairwise_cons.mp ordered).2
      by_cases earlier : node.key < head.key
      · simp only [insertNode, earlier, if_true]
        refine List.pairwise_cons.mpr ⟨?_, ordered⟩
        intro other membership
        rcases List.mem_cons.mp membership with equality | inTail
        · subst other
          exact Or.inl earlier
        · rcases headBefore other inTail with smaller | ⟨equal, _⟩
          · exact Or.inl (earlier.trans smaller)
          · exact Or.inl (equal ▸ earlier)
      · simp only [insertNode, earlier, if_false]
        refine List.pairwise_cons.mpr ⟨?_, ?_⟩
        · intro other membership
          rcases (mem_insertNode_iff node other tail).mp membership with
            equality | inTail
          · subst other
            rcases lt_or_eq_of_le (not_lt.mp earlier) with smaller | equal
            · exact Or.inl smaller
            · exact Or.inr ⟨equal, newest head (by simp)⟩
          · exact headBefore other inTail
        · exact inductionHypothesis tailOrdered
            (fun other inTail => newest other (by simp [inTail]))

/-- The container.  `nextId` names the next node; the last three fields say
that the nodes are in iteration order and that no identity occurs twice. -/
structure Multimap (Key : Type u) (Value : Type v) [LinearOrder Key] where
  nodes : List (Node Key Value)
  nextId : Nat
  ordered : nodes.Pairwise Node.Before
  fresh : ∀ node ∈ nodes, node.id < nextId
  distinct : (nodes.map Node.id).Nodup

namespace Multimap

variable [LinearOrder Key]

def empty : Multimap Key Value where
  nodes := []
  nextId := 0
  ordered := List.Pairwise.nil
  fresh := by simp
  distinct := by simp

/-- Dereference an iterator; `none` if its node has been erased. -/
def find? (map : Multimap Key Value) (id : Nat) : Option (Node Key Value) :=
  map.nodes.find? fun node => node.id == id

/-- The iterator returned is `map.nextId`. -/
def insert (map : Multimap Key Value) (key : Key) (value : Value) :
    Multimap Key Value where
  nodes := insertNode ⟨key, map.nextId, value⟩ map.nodes
  nextId := map.nextId + 1
  ordered := pairwise_insertNode _ _ map.ordered map.fresh
  fresh := by
    intro node membership
    rcases (mem_insertNode_iff _ _ _).mp membership with equality | old
    · simp [equality]
    · exact Nat.lt_succ_of_lt (map.fresh node old)
  distinct := by
    have rearranged :=
      (insertNode_perm ⟨key, map.nextId, value⟩ map.nodes).map Node.id
    rw [rearranged.nodup_iff, List.map_cons, List.nodup_cons]
    refine ⟨?_, map.distinct⟩
    intro clash
    rcases List.mem_map.mp clash with ⟨node, membership, equality⟩
    exact absurd (map.fresh node membership) (by simp [equality])

def filter (map : Multimap Key Value) (keep : Node Key Value → Bool) :
    Multimap Key Value where
  nodes := map.nodes.filter keep
  nextId := map.nextId
  ordered := map.ordered.filter keep
  fresh := fun node membership =>
    map.fresh node (List.mem_of_mem_filter membership)
  distinct := map.distinct.sublist ((List.filter_sublist).map Node.id)

def erase (map : Multimap Key Value) (id : Nat) : Multimap Key Value :=
  map.filter fun node => node.id != id

def clear (map : Multimap Key Value) : Multimap Key Value :=
  map.filter fun _ => false

/-- The nodes from the beginning up to the first key beyond `bound`. -/
def upTo (map : Multimap Key Value) (bound : Key) : List (Node Key Value) :=
  map.nodes.takeWhile fun node => decide (node.key ≤ bound)

def eraseUpTo (map : Multimap Key Value) (bound : Key) :
    Multimap Key Value where
  nodes := map.nodes.dropWhile fun node => decide (node.key ≤ bound)
  nextId := map.nextId
  ordered := map.ordered.sublist (List.dropWhile_sublist _)
  fresh := fun node membership =>
    map.fresh node ((List.dropWhile_sublist _).subset membership)
  distinct := map.distinct.sublist ((List.dropWhile_sublist _).map Node.id)

@[simp]
theorem nodes_empty : (empty : Multimap Key Value).nodes = [] := rfl

@[simp]
theorem mem_insert_iff (map : Multimap Key Value) (key : Key) (value : Value)
    (node : Node Key Value) :
    node ∈ (map.insert key value).nodes ↔
      node = ⟨key, map.nextId, value⟩ ∨ node ∈ map.nodes :=
  mem_insertNode_iff _ _ _

@[simp]
theorem nextId_insert (map : Multimap Key Value) (key : Key) (value : Value) :
    (map.insert key value).nextId = map.nextId + 1 := rfl

theorem insert_perm (map : Multimap Key Value) (key : Key) (value : Value) :
    List.Perm (map.insert key value).nodes
      (⟨key, map.nextId, value⟩ :: map.nodes) :=
  insertNode_perm _ _

@[simp]
theorem mem_erase_iff (map : Multimap Key Value) (id : Nat)
    (node : Node Key Value) :
    node ∈ (map.erase id).nodes ↔ node ∈ map.nodes ∧ node.id ≠ id := by
  simp [erase, filter]

@[simp]
theorem nextId_erase (map : Multimap Key Value) (id : Nat) :
    (map.erase id).nextId = map.nextId := rfl

@[simp]
theorem nodes_clear (map : Multimap Key Value) : map.clear.nodes = [] := by
  simp [clear, filter]

theorem upTo_append_eraseUpTo (map : Multimap Key Value) (bound : Key) :
    map.upTo bound ++ (map.eraseUpTo bound).nodes = map.nodes :=
  List.takeWhile_append_dropWhile

theorem eq_of_id_eq (map : Multimap Key Value) {left right : Node Key Value}
    (leftMember : left ∈ map.nodes) (rightMember : right ∈ map.nodes)
    (equality : left.id = right.id) : left = right :=
  List.inj_on_of_nodup_map map.distinct leftMember rightMember equality

theorem find?_eq_some_iff (map : Multimap Key Value) (id : Nat)
    (node : Node Key Value) :
    map.find? id = some node ↔ node ∈ map.nodes ∧ node.id = id := by
  constructor
  · intro found
    refine ⟨List.mem_of_find?_eq_some found, ?_⟩
    simpa using List.find?_some found
  · rintro ⟨membership, identity⟩
    cases found : map.find? id with
    | none =>
        have excluded := List.find?_eq_none.mp found node membership
        simp [identity] at excluded
    | some other =>
        have otherMember := List.mem_of_find?_eq_some found
        have otherId : other.id = id := by simpa using List.find?_some found
        rw [map.eq_of_id_eq otherMember membership (otherId.trans identity.symm)]

theorem find?_eq_none_iff (map : Multimap Key Value) (id : Nat) :
    map.find? id = none ↔ ∀ node ∈ map.nodes, node.id ≠ id := by
  simp [find?, List.find?_eq_none]

theorem perm_cons_erase (map : Multimap Key Value) {node : Node Key Value}
    (membership : node ∈ map.nodes) :
    List.Perm map.nodes (node :: (map.erase node.id).nodes) := by
  have allDistinct : map.nodes.Nodup := List.Nodup.of_map _ map.distinct
  have erasedDistinct : (map.erase node.id).nodes.Nodup :=
    allDistinct.sublist List.filter_sublist
  refine (List.perm_ext_iff_of_nodup allDistinct ?_).mpr ?_
  · exact List.nodup_cons.mpr ⟨by simp, erasedDistinct⟩
  · intro other
    constructor
    · intro present
      by_cases equality : other.id = node.id
      · simp [map.eq_of_id_eq present membership equality]
      · simp [present, equality]
    · intro present
      rcases List.mem_cons.mp present with equality | kept
      · exact equality ▸ membership
      · exact ((map.mem_erase_iff _ _).mp kept).1

theorem key_le_of_head (map : Multimap Key Value) {head : Node Key Value}
    {tail : List (Node Key Value)} (shape : map.nodes = head :: tail)
    {node : Node Key Value} (membership : node ∈ map.nodes) :
    head.key ≤ node.key := by
  have ordered := map.ordered
  rw [shape] at ordered membership
  rcases List.mem_cons.mp membership with equality | inTail
  · rw [equality]
  · rcases (List.pairwise_cons.mp ordered).1 node inTail with smaller | ⟨equal, _⟩
    · exact smaller.le
    · exact equal.le

theorem key_le_of_mem_upTo (map : Multimap Key Value) {bound : Key}
    {node : Node Key Value} (membership : node ∈ map.upTo bound) :
    node.key ≤ bound := by
  simpa using List.mem_takeWhile_imp membership

end Multimap

end OrderedMultimap
