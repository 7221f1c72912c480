import Ns3Quic.Stream.QuicIntervalSet

/-!
# A queue of items with intervals

`QuicIntervalDeque` keeps items in the order of their intervals and remembers
the index at which the next search is likely to succeed.  Its iterators move
that index along.  The remembered index only saves time: an item is found from
any index inside the queue.

`std::lower_bound` is the first item for which the comparison fails; the items
for which it holds come before the others.
-/

namespace Ns3Quic.Stream

universe u

structure QuicIntervalDeque (Item : Type u) where
  container : List Item
  cachedIndex : Option Nat

namespace QuicIntervalDeque

variable {Item : Type u} (interval : Item → QuicInterval Nat)

def empty : QuicIntervalDeque Item := ⟨[], none⟩

def size (deque : QuicIntervalDeque Item) : Nat := deque.container.length

def pushBack (deque : QuicIntervalDeque Item) (item : Item) : QuicIntervalDeque Item :=
  if (interval item).isEmpty then deque
  else ⟨deque.container ++ [item], some (deque.cachedIndex.getD deque.size)⟩

def popFront (deque : QuicIntervalDeque Item) : QuicIntervalDeque Item :=
  match deque.container with
  | [] => deque
  | _ :: rest =>
      ⟨rest, if rest.isEmpty then none else deque.cachedIndex.map fun cached => cached - 1⟩

/-- What `operator++` of an iterator that comes to the index does to the queue. -/
def moveTo (deque : QuicIntervalDeque Item) (index : Nat) : QuicIntervalDeque Item :=
  { deque with
    cachedIndex := deque.cachedIndex.bind fun cached =>
      if index = deque.size then none else some (max cached index) }

/-- What an iterator that visits all items does to the queue. -/
def moveToEnd (deque : QuicIntervalDeque Item) : QuicIntervalDeque Item :=
  { deque with cachedIndex := if deque.container.isEmpty then deque.cachedIndex else none }

/-- `Search`; the size stands for `DataEnd`. -/
def search (deque : QuicIntervalDeque Item) (intervalBegin beginIndex endIndex : Nat) : Nat :=
  let found := beginIndex + ((deque.container.take endIndex).drop beginIndex).findIdx fun item =>
    intervalBegin < (interval item).max
  if found < endIndex && deque.container[found]?.any fun item =>
      (interval item).contains intervalBegin
  then found
  else deque.size

/-- `DataAt`, unless the remembered index is outside the queue. -/
def dataAt (deque : QuicIntervalDeque Item) (intervalBegin : Nat) :
    Option (Nat × QuicIntervalDeque Item) :=
  match deque.cachedIndex with
  | none => some (deque.search interval intervalBegin 0 deque.size, deque)
  | some cached =>
      match deque.container[cached]? with
      | none => none
      | some item =>
          if (interval item).contains intervalBegin then some (cached, deque)
          else if deque.container[cached + 1]?.any fun next =>
              (interval next).contains intervalBegin then
            some (cached + 1, { deque with cachedIndex := some (cached + 1) })
          else if intervalBegin < (interval item).min then
            some (deque.search interval intervalBegin 0 cached, deque)
          else
            let found := deque.search interval intervalBegin (cached + 1) deque.size
            some (found,
              if found = deque.size then deque else { deque with cachedIndex := some found })

/-! ## Searching -/

variable {interval} {deque : QuicIntervalDeque Item}

/-- The intervals are in order; those of emptied items have no length. -/
def Ordered (interval : Item → QuicInterval Nat) (items : List Item) : Prop :=
  (∀ item ∈ items, (interval item).min ≤ (interval item).max) ∧
    items.Pairwise fun earlier later => (interval earlier).max ≤ (interval later).min

def Inside (deque : QuicIntervalDeque Item) : Prop :=
  ∀ cached, deque.cachedIndex = some cached → cached < deque.size

theorem Ordered.max_le {items : List Item} (ordered : Ordered interval items) {first second : Nat}
    {earlier later : Item} (foundFirst : items[first]? = some earlier)
    (foundSecond : items[second]? = some later) (before : first < second) :
    (interval earlier).max ≤ (interval later).min := by
  obtain ⟨firstInside, rfl⟩ := List.getElem?_eq_some_iff.mp foundFirst
  obtain ⟨secondInside, rfl⟩ := List.getElem?_eq_some_iff.mp foundSecond
  exact List.pairwise_iff_getElem.mp ordered.2 first second firstInside secondInside before

theorem findIdx_eq_of_first {items : List Item} {condition : Item → Bool} {index : Nat}
    {item : Item} (found : items[index]? = some item) (holds : condition item = true)
    (earlier : ∀ before other, before < index → items[before]? = some other →
      condition other = false) :
    items.findIdx condition = index := by
  obtain ⟨inside, rfl⟩ := List.getElem?_eq_some_iff.mp found
  refine (List.findIdx_eq inside).mpr ⟨holds, fun before isBefore => ?_⟩
  exact earlier before _ isBefore (List.getElem?_eq_getElem (isBefore.trans inside))

theorem search_eq (ordered : Ordered interval deque.container) {index : Nat} {item : Item}
    (found : deque.container[index]? = some item) {intervalBegin beginIndex endIndex : Nat}
    (contains : (interval item).contains intervalBegin = true) (low : beginIndex ≤ index)
    (high : index < endIndex) :
    deque.search interval intervalBegin beginIndex endIndex = index := by
  have bounds : (interval item).min ≤ intervalBegin ∧ intervalBegin < (interval item).max := by
    simpa [QuicInterval.contains] using contains
  have inRange : ∀ {place other},
      ((deque.container.take endIndex).drop beginIndex)[place]? = some other →
      deque.container[beginIndex + place]? = some other := by
    intro place other inside
    rw [List.getElem?_drop, List.getElem?_take] at inside
    split at inside
    · exact inside
    · cases inside
  have place : ((deque.container.take endIndex).drop beginIndex).findIdx
      (fun item => intervalBegin < (interval item).max) = index - beginIndex := by
    refine @findIdx_eq_of_first _ _ _ _ item ?_ (by simpa using bounds.2) ?_
    · rw [List.getElem?_drop, Nat.add_sub_cancel' low, List.getElem?_take, if_pos high, found]
    · intro before other isBefore isOther
      have ends := ordered.max_le (inRange isOther) found (by omega)
      simpa using ends.trans bounds.1
  unfold search
  dsimp only
  rw [place, Nat.add_sub_cancel' low, found, Option.any_some, contains, Bool.and_true,
    if_pos (decide_eq_true high)]

theorem Ordered.unique {items : List Item} (ordered : Ordered interval items) {first second : Nat}
    {item other : Item} (found : items[first]? = some item)
    (foundOther : items[second]? = some other)
    {offset : Nat} (contains : (interval item).contains offset = true)
    (containsOther : (interval other).contains offset = true) : first = second := by
  have bounds : (interval item).min ≤ offset ∧ offset < (interval item).max := by
    simpa [QuicInterval.contains] using contains
  have otherBounds : (interval other).min ≤ offset ∧ offset < (interval other).max := by
    simpa [QuicInterval.contains] using containsOther
  rcases Nat.lt_trichotomy first second with before | same | after
  · have ends := ordered.max_le found foundOther before
    omega
  · exact same
  · have ends := ordered.max_le foundOther found after
    omega

theorem dataAt_eq (ordered : Ordered interval deque.container) (inside : Inside deque) {index : Nat}
    {item : Item} (found : deque.container[index]? = some item) {intervalBegin : Nat}
    (contains : (interval item).contains intervalBegin = true) :
    ∃ after, deque.dataAt interval intervalBegin = some (index, after) ∧
      after.container = deque.container ∧ Inside after := by
  have bounds : (interval item).min ≤ intervalBegin ∧ intervalBegin < (interval item).max := by
    simpa [QuicInterval.contains] using contains
  have indexInside : index < deque.size := (List.getElem?_eq_some_iff.mp found).1
  unfold dataAt
  split
  · exact ⟨deque, by rw [search_eq ordered found contains (Nat.zero_le _) indexInside], rfl, inside⟩
  · next cached isCached =>
      have cachedInside := inside cached isCached
      rw [List.getElem?_eq_getElem cachedInside]
      have foundCached : deque.container[cached]? = some deque.container[cached] :=
        List.getElem?_eq_getElem cachedInside
      dsimp only
      split
      · next here =>
          rw [ordered.unique found foundCached contains here]
          exact ⟨deque, rfl, rfl, inside⟩
      · next notHere =>
          split
          · next nextHas =>
              obtain ⟨next, foundNext, here⟩ := (Option.any_eq_true _ _).mp nextHas
              rw [ordered.unique found foundNext contains here]
              refine ⟨_, rfl, rfl, fun other isOther => ?_⟩
              rw [← Option.some.inj isOther]
              exact (List.getElem?_eq_some_iff.mp foundNext).1
          · have elsewhere : index ≠ cached := by
              rintro rfl
              rw [foundCached, Option.some.injEq] at found
              exact notHere (found ▸ contains)
            have wellFormed := ordered.1 _ (List.getElem_mem cachedInside)
            split
            · next below =>
                have before : index < cached := by
                  by_contra notBefore
                  have starts := ordered.max_le foundCached found (by omega)
                  omega
                exact ⟨deque, by rw [search_eq ordered found contains (Nat.zero_le _) before], rfl,
                  inside⟩
            · next notBelow =>
                have after : cached < index := by
                  by_contra notAfter
                  have ends := ordered.max_le found foundCached (by omega)
                  omega
                rw [search_eq ordered found contains after indexInside, if_neg (by omega)]
                refine ⟨_, rfl, rfl, fun other isOther => ?_⟩
                rw [← Option.some.inj isOther]
                exact indexInside

/-! ## The remembered index -/

theorem inside_empty : Inside (empty : QuicIntervalDeque Item) := by
  intro cached impossible
  cases impossible

theorem Inside.pushBack (inside : Inside deque) (item : Item) :
    Inside (deque.pushBack interval item) := by
  unfold QuicIntervalDeque.pushBack
  split
  · exact inside
  · intro cached isCached
    have same := Option.some.inj isCached
    rw [size, List.length_append, List.length_singleton, ← same]
    cases before : deque.cachedIndex with
    | none => exact Nat.lt_succ_self _
    | some old => exact (inside old before).trans (Nat.lt_succ_self _)

theorem Inside.popFront (inside : Inside deque) : Inside deque.popFront := by
  unfold QuicIntervalDeque.popFront
  split
  · exact inside
  · next first rest shape =>
      intro cached isCached
      dsimp only at isCached
      split at isCached
      · cases isCached
      · next notEmpty =>
          obtain ⟨old, isOld, rfl⟩ := Option.map_eq_some_iff.mp isCached
          have oldInside := inside old isOld
          rw [size, shape, List.length_cons] at oldInside
          have positive : 0 < rest.length := List.length_pos_iff.mpr fun empty =>
            notEmpty (List.isEmpty_iff.mpr empty)
          show old - 1 < rest.length
          omega

theorem Inside.moveTo (inside : Inside deque) {index : Nat} (atMost : index ≤ deque.size) :
    Inside (deque.moveTo index) := by
  intro cached isCached
  obtain ⟨old, isOld, now⟩ := Option.bind_eq_some_iff.mp isCached
  split at now
  · cases now
  · have oldInside := inside old isOld
    rw [← Option.some.inj now]
    show max old index < deque.size
    omega

theorem Inside.moveToEnd (inside : Inside deque) : Inside deque.moveToEnd := by
  intro cached isCached
  dsimp only [QuicIntervalDeque.moveToEnd] at isCached
  split at isCached
  · exact inside cached isCached
  · cases isCached

end QuicIntervalDeque

end Ns3Quic.Stream
