import Mathlib.Algebra.Ring.Nat
import Mathlib.Order.MinMax
import Mathlib.Data.List.TakeWhile
import Mathlib.Order.Interval.Finset.Nat

/-!
# Sets of intervals

`QuicIntervalSet` keeps a set of values as half-open intervals that are ordered,
not empty and separated: between two neighbours there is at least one value that
is in neither.  The sequencer's buffer keeps the received bytes of a stream in
such a set, the send buffer those that were acknowledged and those that are to
be sent again.

The ordered container is a list.  An iterator is the place at which the list is
cut in two.
-/

namespace Ns3Quic.Stream

universe u

@[ext]
structure QuicInterval (T : Type u) where
  min : T
  max : T
  deriving DecidableEq, Repr

variable {T : Type u} [LinearOrder T]

namespace QuicInterval

def isEmpty (interval : QuicInterval T) : Bool := interval.max ≤ interval.min

def contains (interval : QuicInterval T) (value : T) : Bool :=
  interval.min ≤ value && value < interval.max

def containsInterval (interval inner : QuicInterval T) : Bool :=
  !interval.isEmpty && !inner.isEmpty && interval.min ≤ inner.min && inner.max ≤ interval.max

def intersects (interval other : QuicInterval T) : Bool :=
  !interval.isEmpty && !other.isEmpty && interval.min < other.max && other.min < interval.max

/-- Whether some value lies between the two, or one of them is empty. -/
def separated (interval other : QuicInterval T) : Bool :=
  if interval.isEmpty || other.isEmpty then true
  else other.max < interval.min || interval.max < other.min

def spanningUnion (interval other : QuicInterval T) : QuicInterval T :=
  if other.isEmpty then interval
  else if interval.isEmpty then other
  else ⟨if other.min < interval.min then other.min else interval.min,
    if interval.max < other.max then other.max else interval.max⟩

theorem isEmpty_eq_false {interval : QuicInterval T} :
    interval.isEmpty = false ↔ interval.min < interval.max := by
  simp [isEmpty]

theorem separated_iff {interval other : QuicInterval T} (nonempty : interval.min < interval.max)
    (otherNonempty : other.min < other.max) :
    interval.separated other = true ↔ other.max < interval.min ∨ interval.max < other.min := by
  rw [separated, isEmpty_eq_false.mpr nonempty, isEmpty_eq_false.mpr otherNonempty]
  simp

theorem spanningUnion_eq {interval other : QuicInterval T} (nonempty : interval.min < interval.max)
    (otherNonempty : other.min < other.max) :
    interval.spanningUnion other =
      ⟨Min.min interval.min other.min, Max.max interval.max other.max⟩ := by
  rw [spanningUnion, isEmpty_eq_false.mpr nonempty, isEmpty_eq_false.mpr otherNonempty,
    if_neg Bool.false_ne_true, if_neg Bool.false_ne_true]
  congr 1
  · split
    · next lower => exact (min_eq_right lower.le).symm
    · next upper => exact (min_eq_left (not_lt.mp upper)).symm
  · split
    · next lower => exact (max_eq_right lower.le).symm
    · next upper => exact (max_eq_left (not_lt.mp upper)).symm

end QuicInterval

open QuicInterval

/-! ## Lists of intervals -/

def Covers (intervals : List (QuicInterval T)) (value : T) : Prop :=
  ∃ interval ∈ intervals, interval.min ≤ value ∧ value < interval.max

structure Valid (intervals : List (QuicInterval T)) : Prop where
  nonempty : ∀ interval ∈ intervals, interval.min < interval.max
  ordered : intervals.Pairwise fun earlier later => earlier.max < later.min

@[simp] theorem not_covers_nil (value : T) : ¬ Covers [] value := by
  rintro ⟨_, membership, -⟩
  exact List.not_mem_nil membership

@[simp] theorem covers_cons {interval : QuicInterval T} {intervals : List (QuicInterval T)}
    {value : T} :
    Covers (interval :: intervals) value ↔
      (interval.min ≤ value ∧ value < interval.max) ∨ Covers intervals value := by
  simp [Covers]

@[simp] theorem covers_append {front back : List (QuicInterval T)} {value : T} :
    Covers (front ++ back) value ↔ Covers front value ∨ Covers back value := by
  simp only [Covers, List.mem_append, or_and_right, exists_or]

theorem valid_nil : Valid ([] : List (QuicInterval T)) :=
  ⟨fun _ membership => absurd membership List.not_mem_nil, List.Pairwise.nil⟩

theorem valid_cons {interval : QuicInterval T} {intervals : List (QuicInterval T)} :
    Valid (interval :: intervals) ↔
      interval.min < interval.max ∧ (∀ later ∈ intervals, interval.max < later.min) ∧
        Valid intervals := by
  constructor
  · rintro ⟨nonempty, ordered⟩
    rw [List.pairwise_cons] at ordered
    refine ⟨nonempty _ List.mem_cons_self, ordered.1, ?_, ordered.2⟩
    exact fun later membership => nonempty later (List.mem_cons_of_mem _ membership)
  · rintro ⟨first, before, nonempty, ordered⟩
    exact ⟨List.forall_mem_cons.mpr ⟨first, nonempty⟩, List.pairwise_cons.mpr ⟨before, ordered⟩⟩

theorem valid_append {front back : List (QuicInterval T)} :
    Valid (front ++ back) ↔
      Valid front ∧ Valid back ∧
        ∀ earlier ∈ front, ∀ later ∈ back, earlier.max < later.min := by
  constructor
  · rintro ⟨nonempty, ordered⟩
    rw [List.pairwise_append] at ordered
    rw [List.forall_mem_append] at nonempty
    exact ⟨⟨nonempty.1, ordered.1⟩, ⟨nonempty.2, ordered.2.1⟩, ordered.2.2⟩
  · rintro ⟨⟨frontNonempty, frontOrdered⟩, ⟨backNonempty, backOrdered⟩, between⟩
    exact ⟨List.forall_mem_append.mpr ⟨frontNonempty, backNonempty⟩,
      List.pairwise_append.mpr ⟨frontOrdered, backOrdered, between⟩⟩

theorem Valid.sublist {intervals part : List (QuicInterval T)} (valid : Valid intervals)
    (contained : part.Sublist intervals) : Valid part :=
  ⟨fun interval membership => valid.nonempty interval (contained.mem membership),
    valid.ordered.sublist contained⟩

theorem not_covers_of_lt {intervals : List (QuicInterval T)} {value : T}
    (below : ∀ interval ∈ intervals, value < interval.min) : ¬ Covers intervals value := by
  rintro ⟨interval, membership, atLeast, -⟩
  exact absurd atLeast (not_le.mpr (below interval membership))

theorem Valid.min_le_of_covers {first : QuicInterval T} {rest : List (QuicInterval T)} {value : T}
    (valid : Valid (first :: rest)) (covered : Covers (first :: rest) value) :
    first.min ≤ value := by
  obtain ⟨nonempty, before, -⟩ := valid_cons.mp valid
  rcases covers_cons.mp covered with inFirst | ⟨later, membership, atLeast, -⟩
  · exact inFirst.1
  · exact (nonempty.trans (before later membership)).le.trans atLeast

theorem Valid.covers_tail_iff {first : QuicInterval T} {rest : List (QuicInterval T)} {value : T}
    (valid : Valid (first :: rest)) :
    Covers rest value ↔ Covers (first :: rest) value ∧ first.max ≤ value := by
  obtain ⟨-, before, -⟩ := valid_cons.mp valid
  rw [covers_cons]
  constructor
  · intro covered
    have ⟨later, membership, atLeast, _⟩ := covered
    exact ⟨.inr covered, (before later membership).le.trans atLeast⟩
  · rintro ⟨inFirst | covered, after⟩
    · exact absurd inFirst.2 (not_lt.mpr after)
    · exact covered

theorem Valid.max_uncovered {intervals : List (QuicInterval T)} (valid : Valid intervals)
    {interval : QuicInterval T} (membership : interval ∈ intervals) :
    ¬ Covers intervals interval.max := by
  obtain ⟨front, back, rfl⟩ := List.append_of_mem membership
  obtain ⟨-, validBack, between⟩ := valid_append.mp valid
  obtain ⟨nonempty, after, -⟩ := valid_cons.mp validBack
  rw [covers_append, covers_cons]
  rintro (⟨earlier, inFront, -, below⟩ | inside | later)
  · exact absurd (below.trans (between earlier inFront interval List.mem_cons_self))
      (not_lt.mpr nonempty.le)
  · exact absurd inside.2 (lt_irrefl _)
  · exact not_covers_of_lt after later

theorem Valid.max_le_of_covers {first second : QuicInterval T}
    {firstRest secondRest : List (QuicInterval T)} (valid : Valid (second :: secondRest))
    (sameMin : first.min = second.min)
    (covered : ∀ value, Covers (first :: firstRest) value → Covers (second :: secondRest) value) :
    first.max ≤ second.max := by
  obtain ⟨nonempty, before, -⟩ := valid_cons.mp valid
  by_contra longer
  -- the end of the second interval is in the first, but no interval of its own list has it
  have inFirst : Covers (first :: firstRest) second.max :=
    covers_cons.mpr (.inl ⟨sameMin.le.trans nonempty.le, not_le.mp longer⟩)
  rcases covers_cons.mp (covered _ inFirst) with inSecond | later
  · exact absurd inSecond.2 (lt_irrefl _)
  · exact not_covers_of_lt before later

theorem Valid.eq_of_covers {left right : List (QuicInterval T)} (validLeft : Valid left)
    (validRight : Valid right) (same : ∀ value, Covers left value ↔ Covers right value) :
    left = right := by
  induction left generalizing right with
  | nil =>
      cases right with
      | nil => rfl
      | cons their rest =>
          have covered : Covers (their :: rest) their.min :=
            covers_cons.mpr (.inl ⟨le_refl _, (valid_cons.mp validRight).1⟩)
          exact absurd ((same _).mpr covered) (not_covers_nil _)
  | cons mine leftRest ih =>
      have mineCovered : Covers (mine :: leftRest) mine.min :=
        covers_cons.mpr (.inl ⟨le_refl _, (valid_cons.mp validLeft).1⟩)
      cases right with
      | nil => exact absurd ((same _).mp mineCovered) (not_covers_nil _)
      | cons their rightRest =>
          have theirCovered : Covers (their :: rightRest) their.min :=
            covers_cons.mpr (.inl ⟨le_refl _, (valid_cons.mp validRight).1⟩)
          have sameMin : mine.min = their.min :=
            le_antisymm (validLeft.min_le_of_covers ((same _).mpr theirCovered))
              (validRight.min_le_of_covers ((same _).mp mineCovered))
          have sameMax : mine.max = their.max :=
            le_antisymm (validRight.max_le_of_covers sameMin fun value => (same value).mp)
              (validLeft.max_le_of_covers sameMin.symm fun value => (same value).mpr)
          have sameRest : leftRest = rightRest := by
            apply ih (valid_cons.mp validLeft).2.2 (valid_cons.mp validRight).2.2
            intro value
            rw [validLeft.covers_tail_iff, validRight.covers_tail_iff, same, sameMax]
          rw [sameRest, show mine = their from QuicInterval.ext sameMin sameMax]

/-! ### `Add` -/

/-- The loop of `Add`: unite the interval with those that touch it. -/
def absorb (union : QuicInterval T) : List (QuicInterval T) → QuicInterval T × List (QuicInterval T)
  | [] => (union, [])
  | interval :: rest =>
      if interval.separated union then (union, interval :: rest)
      else absorb (union.spanningUnion interval) rest

/-- Cut the list where `Add` starts to erase: at `lower_bound`, or one interval
before it if that one touches the new interval. -/
def cutAt (intervals : List (QuicInterval T)) (interval : QuicInterval T) :
    List (QuicInterval T) × List (QuicInterval T) :=
  let before := intervals.takeWhile fun earlier => earlier.min < interval.min
  let after := intervals.dropWhile fun earlier => earlier.min < interval.min
  match before.getLast? with
  | none => (before, after)
  | some last =>
      if last.separated interval then (before, after) else (before.dropLast, last :: after)

/-- `Add` on the list. -/
def insertInterval (intervals : List (QuicInterval T)) (interval : QuicInterval T) :
    List (QuicInterval T) :=
  if interval.isEmpty then intervals
  else
    let (front, rest) := cutAt intervals interval
    let (union, rest) := absorb interval rest
    front ++ union :: rest

theorem le_min_of_mem_dropWhile {intervals : List (QuicInterval T)} {bound : T}
    (valid : Valid intervals) {interval : QuicInterval T}
    (membership : interval ∈ intervals.dropWhile fun earlier => earlier.min < bound) :
    bound ≤ interval.min := by
  induction intervals with
  | nil => exact absurd membership List.not_mem_nil
  | cons first rest ih =>
      obtain ⟨nonempty, before, validRest⟩ := valid_cons.mp valid
      by_cases lower : first.min < bound
      · rw [List.dropWhile_cons_of_pos (by simpa using lower)] at membership
        exact ih validRest membership
      · rw [List.dropWhile_cons_of_neg (by simpa using lower)] at membership
        rcases List.mem_cons.mp membership with rfl | later
        · exact not_lt.mp lower
        · exact (not_lt.mp lower).trans (nonempty.trans (before interval later)).le

/-- What is left of the cut lies before the new interval, what is right of it
reaches up to it. -/
theorem cutAt_spec {intervals : List (QuicInterval T)} {interval : QuicInterval T}
    (valid : Valid intervals) (nonempty : interval.min < interval.max) :
    (cutAt intervals interval).1 ++ (cutAt intervals interval).2 = intervals ∧
    (∀ earlier ∈ (cutAt intervals interval).1, earlier.max < interval.min) ∧
    ∀ later ∈ (cutAt intervals interval).2, interval.min ≤ later.max := by
  have after : ∀ later ∈ intervals.dropWhile fun earlier => earlier.min < interval.min,
      interval.min ≤ later.max := by
    intro later membership
    have inside := (List.dropWhile_sublist _).mem membership
    exact (le_min_of_mem_dropWhile valid membership).trans (valid.nonempty later inside).le
  have together := List.takeWhile_append_dropWhile
    (p := fun earlier : QuicInterval T => decide (earlier.min < interval.min)) (l := intervals)
  unfold cutAt
  dsimp only
  split
  · next nothing =>
      rw [List.getLast?_eq_none_iff] at nothing
      refine ⟨together, ?_, after⟩
      rw [nothing]
      exact fun _ membership => absurd membership List.not_mem_nil
  · next last found =>
      obtain ⟨front, shape⟩ := List.getLast?_eq_some_iff.mp found
      have inBefore : last ∈ intervals.takeWhile fun earlier => earlier.min < interval.min := by
        rw [shape]
        exact List.mem_append_right _ List.mem_cons_self
      have lower : last.min < interval.min := by
        simpa using List.mem_takeWhile_imp inBefore
      have lastNonempty := valid.nonempty last ((List.takeWhile_sublist _).mem inBefore)
      have ordered := (valid.sublist (List.takeWhile_sublist
        fun earlier => decide (earlier.min < interval.min)))
      rw [shape, valid_append] at ordered
      have frontBefore : ∀ earlier ∈ front, earlier.max < interval.min := fun earlier membership =>
        (ordered.2.2 earlier membership last List.mem_cons_self).trans lower
      split
      · next apart =>
          -- the last one starts before the new interval, so it also ends before it
          have lastBefore : last.max < interval.min := by
            rcases (separated_iff lastNonempty nonempty).mp apart with above | below
            · exact absurd (nonempty.trans above) (not_lt.mpr lower.le)
            · exact below
          refine ⟨together, ?_, after⟩
          rw [shape]
          intro earlier membership
          rcases List.mem_append.mp membership with inFront | isLast
          · exact frontBefore earlier inFront
          · rw [List.mem_singleton.mp isLast]
            exact lastBefore
      · next touches =>
          have reaches : interval.min ≤ last.max := by
            by_contra apart
            exact touches ((separated_iff lastNonempty nonempty).mpr (.inr (not_le.mp apart)))
          rw [shape] at together
          rw [shape, List.dropLast_concat]
          refine ⟨?_, frontBefore, List.forall_mem_cons.mpr ⟨reaches, after⟩⟩
          rw [List.append_assoc, List.singleton_append] at together
          exact together

/-- The loop of `Add` covers what the new interval and the list covered, and ends
at the first interval that lies after the union. -/
theorem absorb_spec {union : QuicInterval T} {rest : List (QuicInterval T)} (valid : Valid rest)
    (nonempty : union.min < union.max) (reaches : ∀ later ∈ rest, union.min ≤ later.max) :
    Valid ((absorb union rest).1 :: (absorb union rest).2) ∧
    (∀ value, Covers ((absorb union rest).1 :: (absorb union rest).2) value ↔
      Covers (union :: rest) value) ∧
    ∀ bound, bound < union.min → (∀ later ∈ rest, bound < later.min) →
      bound < (absorb union rest).1.min ∧ ∀ later ∈ (absorb union rest).2, bound < later.min := by
  induction rest generalizing union with
  | nil =>
      exact ⟨valid_cons.mpr ⟨nonempty, fun _ membership => absurd membership List.not_mem_nil,
        valid_nil⟩, fun _ => Iff.rfl, fun _ below belowRest => ⟨below, belowRest⟩⟩
  | cons interval rest ih =>
      obtain ⟨intervalNonempty, before, validRest⟩ := valid_cons.mp valid
      obtain ⟨intervalReaches, restReaches⟩ := List.forall_mem_cons.mp reaches
      by_cases apart : interval.separated union = true
      · rw [absorb, if_pos apart]
        have after : union.max < interval.min := by
          rcases (separated_iff intervalNonempty nonempty).mp apart with above | below
          · exact above
          · exact absurd below (not_lt.mpr intervalReaches)
        refine ⟨valid_cons.mpr ⟨nonempty, ?_, valid⟩, fun _ => Iff.rfl,
          fun _ below belowRest => ⟨below, belowRest⟩⟩
        refine List.forall_mem_cons.mpr ⟨after, fun later membership => ?_⟩
        exact after.trans (intervalNonempty.trans (before later membership))
      · rw [absorb, if_neg apart]
        have touches : interval.min ≤ union.max := by
          by_contra above
          exact apart ((separated_iff intervalNonempty nonempty).mpr (.inl (not_le.mp above)))
        rw [spanningUnion_eq nonempty intervalNonempty]
        obtain ⟨validAfter, covers, below⟩ :=
          @ih ⟨Min.min union.min interval.min, Max.max union.max interval.max⟩ validRest
            ((min_le_left _ _).trans_lt (nonempty.trans_le (le_max_left _ _)))
            fun later membership => (min_le_left _ _).trans (restReaches later membership)
        refine ⟨validAfter, fun value => ?_, fun bound belowUnion belowRest => ?_⟩
        · rw [covers, covers_cons, covers_cons, covers_cons, ← or_assoc]
          refine or_congr_left ?_
          rw [min_le_iff, lt_max_iff]
          constructor
          · rintro ⟨low | low, high | high⟩
            · exact .inl ⟨low, high⟩
            · rcases lt_or_ge value union.max with inside | outside
              · exact .inl ⟨low, inside⟩
              · exact .inr ⟨touches.trans outside, high⟩
            · rcases lt_or_ge value interval.max with inside | outside
              · exact .inr ⟨low, inside⟩
              · exact .inl ⟨intervalReaches.trans outside, high⟩
            · exact .inr ⟨low, high⟩
          · rintro (⟨low, high⟩ | ⟨low, high⟩)
            · exact ⟨.inl low, .inl high⟩
            · exact ⟨.inr low, .inr high⟩
        · obtain ⟨belowInterval, belowLater⟩ := List.forall_mem_cons.mp belowRest
          exact below bound (lt_min belowUnion belowInterval) belowLater

theorem insertInterval_spec {intervals : List (QuicInterval T)} (valid : Valid intervals)
    (interval : QuicInterval T) :
    Valid (insertInterval intervals interval) ∧
    ∀ value, Covers (insertInterval intervals interval) value ↔
      Covers intervals value ∨ (interval.min ≤ value ∧ value < interval.max) := by
  unfold insertInterval
  split
  · next empty =>
      refine ⟨valid, fun value => (or_iff_left ?_).symm⟩
      rintro ⟨low, high⟩
      rw [QuicInterval.isEmpty, decide_eq_true_iff] at empty
      exact absurd (low.trans_lt high) (not_lt.mpr empty)
  · next notEmpty =>
      have nonempty := isEmpty_eq_false.mp (Bool.not_eq_true _ ▸ notEmpty)
      obtain ⟨together, before, reaches⟩ := cutAt_spec valid nonempty
      have parts := valid
      rw [← together, valid_append] at parts
      obtain ⟨validFront, validRest, between⟩ := parts
      obtain ⟨validAfter, covers, below⟩ := absorb_spec validRest nonempty reaches
      dsimp only
      constructor
      · refine valid_append.mpr ⟨validFront, validAfter, fun earlier membership => ?_⟩
        have bounds := below earlier.max (before earlier membership) (between earlier membership)
        exact List.forall_mem_cons.mpr bounds
      · intro value
        rw [covers_append, covers, covers_cons, ← together, covers_append, together, or_left_comm,
          or_comm]

/-- `AddOptimizedForAppend` on the list. -/
def appendInterval (intervals : List (QuicInterval T)) (interval : QuicInterval T) :
    List (QuicInterval T) :=
  match intervals.getLast? with
  | none => insertInterval intervals interval
  | some last =>
      if interval.min < last.min || last.max < interval.min then insertInterval intervals interval
      else if interval.max ≤ last.max then intervals
      else intervals.dropLast ++ [⟨last.min, interval.max⟩]

theorem appendInterval_spec {intervals : List (QuicInterval T)} (valid : Valid intervals)
    (interval : QuicInterval T) :
    Valid (appendInterval intervals interval) ∧
    ∀ value, Covers (appendInterval intervals interval) value ↔
      Covers intervals value ∨ (interval.min ≤ value ∧ value < interval.max) := by
  unfold appendInterval
  split
  · exact insertInterval_spec valid interval
  · next last found =>
      obtain ⟨front, rfl⟩ := List.getLast?_eq_some_iff.mp found
      split
      · exact insertInterval_spec valid interval
      · next notOutside =>
          rw [Bool.or_eq_true, decide_eq_true_iff, decide_eq_true_iff, not_or, not_lt,
            not_lt] at notOutside
          obtain ⟨startsAfter, startsBefore⟩ := notOutside
          split
          · next contained =>
              refine ⟨valid, fun value => (or_iff_left_of_imp ?_).symm⟩
              rintro ⟨low, high⟩
              exact covers_append.mpr (.inr (covers_cons.mpr (.inl
                ⟨startsAfter.trans low, high.trans_le contained⟩)))
          · next longer =>
              rw [List.dropLast_concat]
              obtain ⟨validFront, validLast, between⟩ := valid_append.mp valid
              have extended : last.max < interval.max := not_le.mp longer
              have nonempty : last.min < last.max := (valid_cons.mp validLast).1
              constructor
              · refine valid_append.mpr ⟨validFront, valid_cons.mpr
                  ⟨nonempty.trans extended, fun _ membership => absurd membership
                    List.not_mem_nil, valid_nil⟩, fun earlier membership => ?_⟩
                exact List.forall_mem_cons.mpr ⟨between earlier membership last List.mem_cons_self,
                  fun _ membership => absurd membership List.not_mem_nil⟩
              · intro value
                rw [covers_append, covers_append, covers_cons, covers_cons, or_assoc]
                refine or_congr_right ?_
                constructor
                · rintro (⟨low, high⟩ | nothing)
                  · rcases lt_or_ge value last.max with inside | outside
                    · exact .inl (.inl ⟨low, inside⟩)
                    · exact .inr ⟨startsBefore.trans outside, high⟩
                  · exact absurd nothing (not_covers_nil _)
                · rintro ((⟨low, high⟩ | nothing) | ⟨low, high⟩)
                  · exact .inl ⟨low, high.trans extended⟩
                  · exact .inr nothing
                  · exact .inl ⟨startsAfter.trans low, high⟩

/-! ### Searching -/

/-- The interval before `upper_bound`: the last one that starts at the value or
before it. -/
def lastStarting (intervals : List (QuicInterval T)) (value : T) : Option (QuicInterval T) :=
  (intervals.takeWhile fun interval => interval.min ≤ value).getLast?

/-- `upper_bound`: the first interval that starts after the value. -/
def firstAfter (intervals : List (QuicInterval T)) (value : T) : Option (QuicInterval T) :=
  (intervals.dropWhile fun interval => interval.min ≤ value).head?

theorem lastStarting_cons {interval : QuicInterval T} {rest : List (QuicInterval T)} {value : T}
    (starts : interval.min ≤ value) :
    lastStarting (interval :: rest) value = some ((lastStarting rest value).getD interval) := by
  rw [lastStarting, List.takeWhile_cons_of_pos (by simpa using starts), List.getLast?_cons,
    lastStarting]

theorem lastStarting_mem {intervals : List (QuicInterval T)} {value : T} {last : QuicInterval T}
    (found : lastStarting intervals value = some last) : last ∈ intervals ∧ last.min ≤ value := by
  have membership := List.mem_of_getLast? found
  exact ⟨(List.takeWhile_sublist _).mem membership,
    by simpa using List.mem_takeWhile_imp membership⟩

theorem Valid.covers_iff_lastStarting {intervals : List (QuicInterval T)} (valid : Valid intervals)
    (value : T) :
    Covers intervals value ↔
      ∃ last, lastStarting intervals value = some last ∧ value < last.max := by
  induction intervals with
  | nil => simp [lastStarting]
  | cons first rest ih =>
      obtain ⟨nonempty, before, validRest⟩ := valid_cons.mp valid
      by_cases starts : first.min ≤ value
      · rw [lastStarting_cons starts, covers_cons, ih validRest]
        cases found : lastStarting rest value with
        | none => simp [starts]
        | some last =>
            have after := before last (lastStarting_mem found).1
            have notFirst : ¬ value < first.max :=
              not_lt.mpr (after.le.trans (lastStarting_mem found).2)
            simp [notFirst]
      · have nowhere : ¬ Covers (first :: rest) value := fun covered =>
          starts (valid.min_le_of_covers covered)
        rw [lastStarting, List.takeWhile_cons_of_neg (by simpa using starts)]
        simp [nowhere]

theorem firstAfter_mem {intervals : List (QuicInterval T)} {value : T} {next : QuicInterval T}
    (found : firstAfter intervals value = some next) : next ∈ intervals ∧ value < next.min := by
  have notBefore := List.head?_dropWhile_not
    (fun interval : QuicInterval T => decide (interval.min ≤ value)) intervals
  have membership := List.mem_of_mem_head? found
  rw [firstAfter] at found
  rw [found] at notBefore
  exact ⟨(List.dropWhile_sublist _).mem membership, by simpa using notBefore⟩

theorem Valid.firstAfter_le {intervals : List (QuicInterval T)} (valid : Valid intervals)
    {value : T} {later : QuicInterval T} (membership : later ∈ intervals)
    (after : value < later.min) :
    ∃ next, firstAfter intervals value = some next ∧ next.min ≤ later.min := by
  induction intervals with
  | nil => exact absurd membership List.not_mem_nil
  | cons first rest ih =>
      obtain ⟨nonempty, before, validRest⟩ := valid_cons.mp valid
      by_cases starts : first.min ≤ value
      · rw [firstAfter, List.dropWhile_cons_of_pos (by simpa using starts), ← firstAfter]
        rcases List.mem_cons.mp membership with rfl | inRest
        · exact absurd after (not_lt.mpr starts)
        · exact ih validRest inRest
      · rw [firstAfter, List.dropWhile_cons_of_neg (by simpa using starts), List.head?_cons]
        refine ⟨first, rfl, ?_⟩
        rcases List.mem_cons.mp membership with rfl | inRest
        · exact le_refl _
        · exact (nonempty.trans (before later inRest)).le

def containsValue (intervals : List (QuicInterval T)) (value : T) : Bool :=
  match lastStarting intervals value with
  | none => false
  | some last => last.contains value

theorem containsValue_iff {intervals : List (QuicInterval T)} (valid : Valid intervals)
    (value : T) : containsValue intervals value = true ↔ Covers intervals value := by
  rw [containsValue, valid.covers_iff_lastStarting]
  cases found : lastStarting intervals value with
  | none => simp
  | some last => simp [contains, (lastStarting_mem found).2]

def disjointFrom (intervals : List (QuicInterval T)) (interval : QuicInterval T) : Bool :=
  if interval.isEmpty then true
  else if (firstAfter intervals interval.min).any fun next => next.min < interval.max then false
  else
    match lastStarting intervals interval.min with
    | none => true
    | some last => last.max ≤ interval.min

theorem disjointFrom_iff {intervals : List (QuicInterval T)} (valid : Valid intervals)
    (interval : QuicInterval T) :
    disjointFrom intervals interval = true ↔
      ∀ value, interval.min ≤ value → value < interval.max → ¬ Covers intervals value := by
  unfold disjointFrom
  split
  · next empty =>
      rw [QuicInterval.isEmpty, decide_eq_true_iff] at empty
      refine iff_of_true rfl fun value low high => ?_
      exact absurd (low.trans_lt high) (not_lt.mpr empty)
  · next notEmpty =>
      have nonempty := isEmpty_eq_false.mp (Bool.not_eq_true _ ▸ notEmpty)
      split
      · next overlaps =>
          obtain ⟨next, found, startsInside⟩ := (Option.any_eq_true _ _).mp overlaps
          obtain ⟨inside, after⟩ := firstAfter_mem found
          refine iff_of_false Bool.false_ne_true fun disjoint => ?_
          exact disjoint next.min after.le (by simpa using startsInside)
            ⟨next, inside, le_refl _, valid.nonempty next inside⟩
      · next noOverlap =>
          -- what is left is whether the first value of the interval is covered
          have atStart : (match lastStarting intervals interval.min with
              | none => true
              | some last => decide (last.max ≤ interval.min)) = true ↔
              ¬ Covers intervals interval.min := by
            rw [valid.covers_iff_lastStarting]
            cases lastStarting intervals interval.min <;> simp
          rw [atStart]
          constructor
          · rintro uncovered value low high ⟨covering, membership, atLeast, below⟩
            rcases lt_or_ge interval.min covering.min with after | starts
            · obtain ⟨next, found, first⟩ := valid.firstAfter_le membership after
              refine noOverlap ((Option.any_eq_true _ _).mpr ⟨next, found, ?_⟩)
              simpa using (first.trans atLeast).trans_lt high
            · exact uncovered ⟨covering, membership, starts, low.trans_lt below⟩
          · exact fun disjoint => disjoint interval.min (le_refl _) nonempty

def containsWhole (intervals : List (QuicInterval T)) (interval : QuicInterval T) : Bool :=
  match lastStarting intervals interval.min with
  | none => false
  | some last => last.containsInterval interval

theorem containsWhole_iff {intervals : List (QuicInterval T)} (valid : Valid intervals)
    {interval : QuicInterval T} (nonempty : interval.min < interval.max) :
    containsWhole intervals interval = true ↔
      ∀ value, interval.min ≤ value → value < interval.max → Covers intervals value := by
  have atStart := valid.covers_iff_lastStarting interval.min
  rw [containsWhole]
  cases found : lastStarting intervals interval.min with
  | none =>
      refine iff_of_false Bool.false_ne_true fun all => ?_
      obtain ⟨last, impossible, -⟩ := atStart.mp (all _ (le_refl _) nonempty)
      exact nomatch found.symm.trans impossible
  | some last =>
      obtain ⟨membership, starts⟩ := lastStarting_mem found
      have lastNonempty := valid.nonempty last membership
      have shape : last.containsInterval interval = true ↔ interval.max ≤ last.max := by
        simp [containsInterval, isEmpty_eq_false.mpr lastNonempty, isEmpty_eq_false.mpr nonempty,
          starts]
      rw [shape]
      constructor
      · intro ends value low high
        exact ⟨last, membership, starts.trans low, high.trans_le ends⟩
      · intro all
        by_contra longer
        rw [not_le] at longer
        -- the end of the interval would be covered, but only by one that starts later
        have startsBefore : interval.min < last.max := by
          obtain ⟨other, same, inside⟩ := atStart.mp (all _ (le_refl _) nonempty)
          rwa [Option.some.inj (found.symm.trans same)]
        obtain ⟨other, inOther, low, high⟩ := all last.max startsBefore.le longer
        exact valid.max_uncovered membership ⟨other, inOther, low, high⟩

/-! ### `Difference` -/

def leadingPart (mine their : QuicInterval T) : List (QuicInterval T) :=
  if mine.min < their.min then [⟨mine.min, their.min⟩] else []

/-- The rounds of `Difference` for one interval of the other set: what lies before
it and is kept, and what is left for the later intervals. -/
def cutOff (their : QuicInterval T) :
    List (QuicInterval T) → List (QuicInterval T) × List (QuicInterval T)
  | [] => ([], [])
  | mine :: rest =>
      if mine.max ≤ their.min then
        (mine :: (cutOff their rest).1, (cutOff their rest).2)
      else if their.max ≤ mine.min then ([], mine :: rest)
      else if mine.max ≤ their.max then
        (leadingPart mine their ++ (cutOff their rest).1, (cutOff their rest).2)
      else (leadingPart mine their, ⟨their.max, mine.max⟩ :: rest)

def subtract (mine : List (QuicInterval T)) : List (QuicInterval T) → List (QuicInterval T)
  | [] => mine
  | their :: theirs => (cutOff their mine).1 ++ subtract (cutOff their mine).2 theirs

structure CutOff (their : QuicInterval T) (mine kept remaining : List (QuicInterval T)) : Prop where
  validKept : Valid kept
  validRemaining : Valid remaining
  before : ∀ interval ∈ kept, interval.max ≤ their.min
  after : ∀ interval ∈ remaining, their.max ≤ interval.min
  covers : ∀ value, Covers kept value ∨ Covers remaining value ↔
    Covers mine value ∧ ¬ (their.min ≤ value ∧ value < their.max)
  bounded : ∀ bound, (∀ interval ∈ mine, bound < interval.min) →
    (∀ interval ∈ kept, bound < interval.min) ∧ ∀ interval ∈ remaining, bound < interval.min

theorem mem_leadingPart {mine their interval : QuicInterval T} :
    interval ∈ leadingPart mine their ↔
      mine.min < their.min ∧ interval = ⟨mine.min, their.min⟩ := by
  unfold leadingPart
  split
  · next before => simp [before]
  · next notBefore => simp [notBefore]

theorem valid_leadingPart (mine their : QuicInterval T) : Valid (leadingPart mine their) := by
  refine ⟨fun interval membership => ?_, ?_⟩
  · obtain ⟨before, rfl⟩ := mem_leadingPart.mp membership
    exact before
  · unfold leadingPart
    split
    · exact List.pairwise_singleton _ _
    · exact List.Pairwise.nil

theorem covers_leadingPart {mine their : QuicInterval T} {value : T} :
    Covers (leadingPart mine their) value ↔ mine.min ≤ value ∧ value < their.min := by
  constructor
  · rintro ⟨interval, membership, low, high⟩
    obtain ⟨-, rfl⟩ := mem_leadingPart.mp membership
    exact ⟨low, high⟩
  · rintro ⟨low, high⟩
    exact ⟨⟨mine.min, their.min⟩, mem_leadingPart.mpr ⟨low.trans_lt high, rfl⟩, low, high⟩

section CutOff

variable {their first : QuicInterval T} {rest kept remaining : List (QuicInterval T)}

theorem CutOff.whole (tail : CutOff their rest kept remaining) (valid : Valid (first :: rest))
    (before : first.max ≤ their.min) : CutOff their (first :: rest) (first :: kept) remaining := by
  obtain ⟨nonempty, beforeRest, -⟩ := valid_cons.mp valid
  constructor
  · exact valid_cons.mpr ⟨nonempty, (tail.bounded first.max beforeRest).1, tail.validKept⟩
  · exact tail.validRemaining
  · exact List.forall_mem_cons.mpr ⟨before, tail.before⟩
  · exact tail.after
  · intro value
    rw [covers_cons, covers_cons, or_assoc, tail.covers]
    grind
  · intro bound below
    obtain ⟨belowFirst, belowRest⟩ := List.forall_mem_cons.mp below
    obtain ⟨belowKept, belowRemaining⟩ := tail.bounded bound belowRest
    exact ⟨List.forall_mem_cons.mpr ⟨belowFirst, belowKept⟩, belowRemaining⟩

theorem CutOff.behind (valid : Valid (first :: rest)) (after : their.max ≤ first.min) :
    CutOff their (first :: rest) [] (first :: rest) := by
  obtain ⟨nonempty, beforeRest, -⟩ := valid_cons.mp valid
  constructor
  · exact valid_nil
  · exact valid
  · exact fun _ membership => absurd membership List.not_mem_nil
  · refine List.forall_mem_cons.mpr ⟨after, fun interval membership => ?_⟩
    exact after.trans (nonempty.trans (beforeRest interval membership)).le
  · intro value
    have notTheir : Covers (first :: rest) value → their.max ≤ value := fun covered =>
      after.trans (valid.min_le_of_covers covered)
    have nothing := not_covers_nil value
    grind
  · exact fun bound below => ⟨fun _ membership => absurd membership List.not_mem_nil, below⟩

theorem CutOff.swallowed (tail : CutOff their rest kept remaining) (valid : Valid (first :: rest))
    (overlaps : their.min < first.max) (ends : first.max ≤ their.max) :
    CutOff their (first :: rest) (leadingPart first their ++ kept) remaining := by
  obtain ⟨-, beforeRest, -⟩ := valid_cons.mp valid
  constructor
  · refine valid_append.mpr ⟨valid_leadingPart _ _, tail.validKept, ?_⟩
    intro earlier membership later inKept
    rw [(mem_leadingPart.mp membership).2]
    exact overlaps.trans ((tail.bounded first.max beforeRest).1 later inKept)
  · exact tail.validRemaining
  · refine List.forall_mem_append.mpr ⟨fun interval membership => ?_, tail.before⟩
    rw [(mem_leadingPart.mp membership).2]
  · exact tail.after
  · intro value
    rw [covers_append, covers_leadingPart, covers_cons, or_assoc, tail.covers]
    grind
  · intro bound below
    obtain ⟨belowFirst, belowRest⟩ := List.forall_mem_cons.mp below
    obtain ⟨belowKept, belowRemaining⟩ := tail.bounded bound belowRest
    refine ⟨List.forall_mem_append.mpr ⟨fun interval membership => ?_, belowKept⟩, belowRemaining⟩
    rw [(mem_leadingPart.mp membership).2]
    exact belowFirst

theorem CutOff.longer (valid : Valid (first :: rest)) (overlaps : their.min < first.max)
    (starts : first.min < their.max) (goesOn : their.max < first.max) :
    CutOff their (first :: rest) (leadingPart first their) (⟨their.max, first.max⟩ :: rest) := by
  obtain ⟨-, beforeRest, validRest⟩ := valid_cons.mp valid
  constructor
  · exact valid_leadingPart _ _
  · exact valid_cons.mpr ⟨goesOn, beforeRest, validRest⟩
  · intro interval membership
    rw [(mem_leadingPart.mp membership).2]
  · refine List.forall_mem_cons.mpr ⟨le_refl _, fun interval membership => ?_⟩
    exact (goesOn.trans (beforeRest interval membership)).le
  · intro value
    have restAfter : Covers rest value → first.max ≤ value := fun covered =>
      (valid.covers_tail_iff.mp covered).2
    rw [covers_leadingPart, covers_cons, covers_cons]
    grind
  · intro bound below
    obtain ⟨belowFirst, belowRest⟩ := List.forall_mem_cons.mp below
    refine ⟨fun interval membership => ?_, List.forall_mem_cons.mpr
      ⟨belowFirst.trans starts, belowRest⟩⟩
    rw [(mem_leadingPart.mp membership).2]
    exact belowFirst

end CutOff

theorem cutOff_spec {their : QuicInterval T} {mine : List (QuicInterval T)} (valid : Valid mine) :
    CutOff their mine (cutOff their mine).1 (cutOff their mine).2 := by
  induction mine with
  | nil =>
      refine ⟨valid_nil, valid_nil, ?_, ?_, fun value => ?_, fun bound below => ⟨below, below⟩⟩
      · exact fun _ membership => absurd membership List.not_mem_nil
      · exact fun _ membership => absurd membership List.not_mem_nil
      · simp [cutOff]
  | cons first rest ih =>
      have tail := ih (valid_cons.mp valid).2.2
      unfold cutOff
      split
      · next before => exact tail.whole valid before
      · next overlaps =>
          split
          · next after => exact CutOff.behind valid after
          · next starts =>
              split
              · next ends => exact tail.swallowed valid (not_le.mp overlaps) ends
              · next goesOn =>
                  exact CutOff.longer valid (not_le.mp overlaps) (not_le.mp starts)
                    (not_le.mp goesOn)

theorem subtract_spec {mine theirs : List (QuicInterval T)} (valid : Valid mine)
    (validTheirs : Valid theirs) :
    Valid (subtract mine theirs) ∧
    (∀ value, Covers (subtract mine theirs) value ↔ Covers mine value ∧ ¬ Covers theirs value) ∧
    ∀ bound, (∀ interval ∈ mine, bound < interval.min) →
      ∀ interval ∈ subtract mine theirs, bound < interval.min := by
  induction theirs generalizing mine with
  | nil => exact ⟨valid, fun value => by simp [subtract], fun bound below => below⟩
  | cons their theirs ih =>
      obtain ⟨theirNonempty, beforeTheirs, validRest⟩ := valid_cons.mp validTheirs
      have cut : CutOff their mine (cutOff their mine).1 (cutOff their mine).2 := cutOff_spec valid
      obtain ⟨validLater, covers, bounded⟩ := ih cut.validRemaining validRest
      have later := bounded their.min fun interval membership =>
        theirNonempty.trans_le (cut.after interval membership)
      rw [subtract]
      refine ⟨valid_append.mpr ⟨cut.validKept, validLater, ?_⟩, fun value => ?_,
        fun bound below => ?_⟩
      · intro earlier inKept interval membership
        exact (cut.before earlier inKept).trans_lt (later interval membership)
      · -- what is kept lies before the interval, the other intervals lie after it
        have keptBefore : Covers (cutOff their mine).1 value → ¬ Covers theirs value := by
          rintro ⟨interval, membership, -, below⟩
          apply not_covers_of_lt
          intro other inTheirs
          exact below.trans_le ((cut.before interval membership).trans
            (theirNonempty.trans (beforeTheirs other inTheirs)).le)
        have split := cut.covers value
        rw [covers_append, covers, covers_cons]
        grind
      · obtain ⟨belowKept, belowRemaining⟩ := cut.bounded bound below
        exact List.forall_mem_append.mpr ⟨belowKept, bounded bound belowRemaining⟩

/-! ## The set -/

variable (T) in
structure QuicIntervalSet where
  intervals : List (QuicInterval T)
  valid : Valid intervals

namespace QuicIntervalSet

instance : Membership T (QuicIntervalSet T) := ⟨fun set value => Covers set.intervals value⟩

instance (set : QuicIntervalSet T) (value : T) : Decidable (value ∈ set) :=
  decidable_of_iff _ (containsValue_iff set.valid value)

def empty : QuicIntervalSet T := ⟨[], valid_nil⟩

instance : EmptyCollection (QuicIntervalSet T) := ⟨empty⟩

def isEmpty (set : QuicIntervalSet T) : Bool := set.intervals.isEmpty

def size (set : QuicIntervalSet T) : Nat := set.intervals.length

def add (set : QuicIntervalSet T) (interval : QuicInterval T) : QuicIntervalSet T :=
  ⟨insertInterval set.intervals interval, (insertInterval_spec set.valid interval).1⟩

def addOptimizedForAppend (set : QuicIntervalSet T) (interval : QuicInterval T) :
    QuicIntervalSet T :=
  ⟨appendInterval set.intervals interval, (appendInterval_spec set.valid interval).1⟩

def ofInterval (interval : QuicInterval T) : QuicIntervalSet T :=
  (∅ : QuicIntervalSet T).add interval

def contains (set : QuicIntervalSet T) (value : T) : Bool := containsValue set.intervals value

def containsInterval (set : QuicIntervalSet T) (interval : QuicInterval T) : Bool :=
  containsWhole set.intervals interval

def isDisjoint (set : QuicIntervalSet T) (interval : QuicInterval T) : Bool :=
  disjointFrom set.intervals interval

def difference (set other : QuicIntervalSet T) : QuicIntervalSet T :=
  ⟨subtract set.intervals other.intervals, (subtract_spec set.valid other.valid).1⟩

def spanningInterval (set : QuicIntervalSet T) : Option (QuicInterval T) :=
  match set.intervals.head?, set.intervals.getLast? with
  | some first, some last => some ⟨first.min, last.max⟩
  | _, _ => none

def differenceInterval (set : QuicIntervalSet T) (interval : QuicInterval T) : QuicIntervalSet T :=
  if (set.spanningInterval).any fun spanning => spanning.intersects interval then
    set.difference (ofInterval interval)
  else set

theorem mem_iff {set : QuicIntervalSet T} {value : T} :
    value ∈ set ↔ ∃ interval ∈ set.intervals, interval.min ≤ value ∧ value < interval.max :=
  Iff.rfl

@[simp] theorem notMem_empty (value : T) : value ∉ (∅ : QuicIntervalSet T) :=
  not_covers_nil value

@[simp] theorem mem_add {set : QuicIntervalSet T} {interval : QuicInterval T} {value : T} :
    value ∈ set.add interval ↔ value ∈ set ∨ (interval.min ≤ value ∧ value < interval.max) :=
  (insertInterval_spec set.valid interval).2 value

@[simp] theorem mem_ofInterval {interval : QuicInterval T} {value : T} :
    value ∈ ofInterval interval ↔ interval.min ≤ value ∧ value < interval.max := by
  simp [ofInterval]

theorem size_ofInterval_le (interval : QuicInterval T) : (ofInterval interval).size ≤ 1 := by
  show (insertInterval [] interval).length ≤ 1
  unfold insertInterval
  split
  · exact Nat.zero_le 1
  · exact Nat.le_refl 1

@[simp] theorem mem_difference {set other : QuicIntervalSet T} {value : T} :
    value ∈ set.difference other ↔ value ∈ set ∧ value ∉ other :=
  (subtract_spec set.valid other.valid).2.1 value

theorem contains_iff {set : QuicIntervalSet T} {value : T} :
    set.contains value = true ↔ value ∈ set :=
  containsValue_iff set.valid value

theorem isDisjoint_iff {set : QuicIntervalSet T} {interval : QuicInterval T} :
    set.isDisjoint interval = true ↔
      ∀ value, interval.min ≤ value → value < interval.max → value ∉ set :=
  disjointFrom_iff set.valid interval

/-- A set is determined by its values: no two lists of intervals stand for one set. -/
theorem ext_mem {left right : QuicIntervalSet T}
    (same : ∀ value, value ∈ left ↔ value ∈ right) : left = right := by
  have sameIntervals := left.valid.eq_of_covers right.valid same
  cases left
  cases right
  simp only [mk.injEq]
  exact sameIntervals

/-- The shortcut for appending changes the set as `Add` does. -/
theorem addOptimizedForAppend_eq (set : QuicIntervalSet T) (interval : QuicInterval T) :
    set.addOptimizedForAppend interval = set.add interval := by
  apply ext_mem
  intro value
  rw [mem_add]
  exact (appendInterval_spec set.valid interval).2 value

theorem isEmpty_iff {set : QuicIntervalSet T} : set.isEmpty = true ↔ ∀ value, value ∉ set := by
  rw [isEmpty, List.isEmpty_iff]
  constructor
  · intro nothing value membership
    rw [mem_iff, nothing] at membership
    exact not_covers_nil value membership
  · intro nothing
    have same : set = ∅ := ext_mem fun value => iff_of_false (nothing value) (notMem_empty value)
    rw [same]
    rfl

theorem lt_of_getLast? {set : QuicIntervalSet T} {last : QuicInterval T}
    (found : set.intervals.getLast? = some last) {value : T} (membership : value ∈ set) :
    value < last.max := by
  obtain ⟨interval, inSet, -, below⟩ := membership
  obtain ⟨front, shape⟩ := List.getLast?_eq_some_iff.mp found
  have valid := set.valid
  rw [shape] at inSet valid
  rcases List.mem_append.mp inSet with inFront | isLast
  · obtain ⟨-, validLast, between⟩ := valid_append.mp valid
    exact below.trans ((between interval inFront last List.mem_cons_self).trans
      (valid_cons.mp validLast).1)
  · rw [← List.mem_singleton.mp isLast]
    exact below

theorem containsInterval_iff {set : QuicIntervalSet T} {interval : QuicInterval T}
    (nonempty : interval.min < interval.max) :
    set.containsInterval interval = true ↔
      ∀ value, interval.min ≤ value → value < interval.max → value ∈ set :=
  containsWhole_iff set.valid nonempty

@[simp] theorem mem_differenceInterval {set : QuicIntervalSet T} {interval : QuicInterval T}
    {value : T} :
    value ∈ set.differenceInterval interval ↔
      value ∈ set ∧ ¬ (interval.min ≤ value ∧ value < interval.max) := by
  unfold differenceInterval
  split
  · rw [mem_difference, mem_ofInterval]
  · next outside =>
      refine (and_iff_left_of_imp fun membership inside => outside ?_).symm
      obtain ⟨covering, inSet, low, high⟩ := membership
      have nonempty := set.valid.nonempty covering inSet
      obtain ⟨first, rest, shape⟩ := List.exists_cons_of_ne_nil (List.ne_nil_of_mem inSet)
      obtain ⟨last, foundLast⟩ :=
        Option.isSome_iff_exists.mp (List.getLast?_isSome.mpr (List.ne_nil_of_mem inSet))
      have foundFirst : set.intervals.head? = some first := by rw [shape, List.head?_cons]
      have firstLe : first.min ≤ value := by
        have valid := set.valid
        rw [shape] at valid inSet
        exact valid.min_le_of_covers ⟨covering, inSet, low, high⟩
      have ltLast := lt_of_getLast? foundLast (mem_iff.mpr ⟨covering, inSet, low, high⟩)
      rw [spanningInterval, foundFirst, foundLast]
      simp only [Option.any_some, QuicInterval.intersects, Bool.and_eq_true, Bool.not_eq_true',
        isEmpty_eq_false, decide_eq_true_iff]
      exact ⟨⟨⟨firstLe.trans_lt ltLast, inside.1.trans_lt inside.2⟩, firstLe.trans_lt inside.2⟩,
        inside.1.trans_lt ltLast⟩

theorem exists_spanningInterval {set : QuicIntervalSet T} {value : T} (membership : value ∈ set) :
    ∃ spanning, set.spanningInterval = some spanning ∧ spanning.min ∈ set := by
  obtain ⟨covering, inSet, -⟩ := membership
  obtain ⟨first, rest, shape⟩ := List.exists_cons_of_ne_nil (List.ne_nil_of_mem inSet)
  obtain ⟨last, foundLast⟩ :=
    Option.isSome_iff_exists.mp (List.getLast?_isSome.mpr (List.ne_nil_of_mem inSet))
  have isFirst : first ∈ set.intervals := shape ▸ List.mem_cons_self
  refine ⟨⟨first.min, last.max⟩, ?_, first, isFirst, le_rfl, set.valid.nonempty first isFirst⟩
  rw [spanningInterval, foundLast, shape, List.head?_cons]

/-! ## Histories of a set -/

inductive Operation (T : Type u) [LinearOrder T] where
  | add (interval : QuicInterval T)
  | addOptimizedForAppend (interval : QuicInterval T)
  | difference (other : QuicIntervalSet T)
  | differenceInterval (interval : QuicInterval T)
  | clear

def perform (set : QuicIntervalSet T) : Operation T → QuicIntervalSet T
  | .add interval => set.add interval
  | .addOptimizedForAppend interval => set.addOptimizedForAppend interval
  | .difference other => set.difference other
  | .differenceInterval interval => set.differenceInterval interval
  | .clear => ∅

/-- What a call is to do to the values. -/
def Operation.effect (values : Set T) : Operation T → Set T
  | .add interval => values ∪ Set.Ico interval.min interval.max
  | .addOptimizedForAppend interval => values ∪ Set.Ico interval.min interval.max
  | .difference other => values \ {value | value ∈ other}
  | .differenceInterval interval => values \ Set.Ico interval.min interval.max
  | .clear => ∅

def Represents (set : QuicIntervalSet T) (values : Set T) : Prop :=
  ∀ value, value ∈ set ↔ value ∈ values

theorem Represents.perform {set : QuicIntervalSet T} {values : Set T}
    (represents : Represents set values) (operation : Operation T) :
    Represents (set.perform operation) (operation.effect values) := by
  intro value
  cases operation with
  | add interval =>
      rw [QuicIntervalSet.perform, mem_add, represents]
      rfl
  | addOptimizedForAppend interval =>
      rw [QuicIntervalSet.perform, addOptimizedForAppend_eq, mem_add, represents]
      rfl
  | difference other =>
      rw [QuicIntervalSet.perform, mem_difference, represents]
      rfl
  | differenceInterval interval =>
      rw [QuicIntervalSet.perform, mem_differenceInterval, represents]
      rfl
  | clear => exact iff_of_false (notMem_empty value) (Set.notMem_empty value)

theorem represents_performAll (operations : List (Operation T)) :
    Represents (operations.foldl perform ∅) (operations.foldl Operation.effect (∅ : Set T)) := by
  induction operations using List.reverseRecOn with
  | nil => exact fun value => iff_of_false (notMem_empty value) (Set.notMem_empty value)
  | append_singleton earlier operation ih =>
      rw [List.foldl_concat, List.foldl_concat]
      exact ih.perform operation

/-- After every history of a set its questions are answered as the values demand,
and the list of intervals does not tell how it came about: two histories that end
with the same values end with the same intervals. -/
theorem answers_of_history (operations : List (Operation T)) :
    (∀ value, (operations.foldl perform ∅).contains value = true ↔
      value ∈ operations.foldl Operation.effect (∅ : Set T)) ∧
    (∀ interval : QuicInterval T, interval.min < interval.max →
      ((operations.foldl perform ∅).containsInterval interval = true ↔
        Set.Ico interval.min interval.max ⊆ operations.foldl Operation.effect (∅ : Set T))) ∧
    (∀ interval : QuicInterval T, (operations.foldl perform ∅).isDisjoint interval = true ↔
      Set.Ico interval.min interval.max ∩ operations.foldl Operation.effect (∅ : Set T) = ∅) ∧
    ((operations.foldl perform ∅).isEmpty = true ↔
      operations.foldl Operation.effect (∅ : Set T) = ∅) ∧
    ∀ others : List (Operation T),
      operations.foldl Operation.effect (∅ : Set T) = others.foldl Operation.effect ∅ →
      operations.foldl perform ∅ = others.foldl perform ∅ := by
  have represents := represents_performAll operations
  refine ⟨fun value => ?_, fun interval nonempty => ?_, fun interval => ?_, ?_,
    fun others same => ?_⟩
  · rw [contains_iff, represents]
  · rw [containsInterval_iff nonempty]
    constructor
    · exact fun all value inside => (represents value).mp (all value inside.1 inside.2)
    · exact fun all value low high => (represents value).mpr (all ⟨low, high⟩)
  · rw [isDisjoint_iff, Set.eq_empty_iff_forall_notMem]
    constructor
    · exact fun apart value both =>
        apart value both.1.1 both.1.2 ((represents value).mpr both.2)
    · exact fun apart value low high membership =>
        apart value ⟨⟨low, high⟩, (represents value).mp membership⟩
  · rw [isEmpty_iff, Set.eq_empty_iff_forall_notMem]
    exact forall_congr' fun value => not_congr (represents value)
  · refine ext_mem fun value => ?_
    rw [represents, same, ← represents_performAll others]

end QuicIntervalSet

/-! ## Sets of numbers -/

def totalLength (intervals : List (QuicInterval Nat)) : Nat :=
  (intervals.map fun interval => interval.max - interval.min).sum

def offsets : List (QuicInterval Nat) → Finset Nat
  | [] => ∅
  | interval :: rest => Finset.Ico interval.min interval.max ∪ offsets rest

theorem mem_offsets {intervals : List (QuicInterval Nat)} {offset : Nat} :
    offset ∈ offsets intervals ↔ Covers intervals offset := by
  induction intervals with
  | nil => simp [offsets]
  | cons interval rest ih => rw [offsets, Finset.mem_union, Finset.mem_Ico, ih, covers_cons]

theorem card_offsets {intervals : List (QuicInterval Nat)} (valid : Valid intervals) :
    (offsets intervals).card = totalLength intervals := by
  induction intervals with
  | nil => rfl
  | cons interval rest ih =>
      have apart : Disjoint (Finset.Ico interval.min interval.max) (offsets rest) := by
        rw [Finset.disjoint_left]
        intro offset inFirst inRest
        have after := (valid.covers_tail_iff.mp (mem_offsets.mp inRest)).2
        rw [Finset.mem_Ico] at inFirst
        omega
      rw [offsets, Finset.card_union_of_disjoint apart, Nat.card_Ico,
        ih (valid_cons.mp valid).2.2]
      rfl

namespace QuicIntervalSet

def count (set : QuicIntervalSet Nat) : Nat := totalLength set.intervals

theorem count_eq_card (set : QuicIntervalSet Nat) : set.count = (offsets set.intervals).card :=
  (card_offsets set.valid).symm

theorem mem_iff_offsets {set : QuicIntervalSet Nat} {offset : Nat} :
    offset ∈ offsets set.intervals ↔ offset ∈ set :=
  mem_offsets

theorem count_add {whole left right : QuicIntervalSet Nat}
    (parts : ∀ offset, offset ∈ whole ↔ offset ∈ left ∨ offset ∈ right)
    (apart : ∀ offset ∈ left, offset ∉ right) : whole.count = left.count + right.count := by
  have union : offsets whole.intervals = offsets left.intervals ∪ offsets right.intervals := by
    ext offset
    simp only [Finset.mem_union, mem_iff_offsets, parts]
  have disjoint : Disjoint (offsets left.intervals) (offsets right.intervals) :=
    Finset.disjoint_left.mpr fun offset inLeft inRight =>
      apart offset (mem_iff_offsets.mp inLeft) (mem_iff_offsets.mp inRight)
  rw [count_eq_card, count_eq_card, count_eq_card, union, Finset.card_union_of_disjoint disjoint]

theorem count_ofInterval (interval : QuicInterval Nat) :
    (ofInterval interval).count = interval.max - interval.min := by
  have same : offsets (ofInterval interval).intervals = Finset.Ico interval.min interval.max := by
    ext offset
    rw [mem_iff_offsets, mem_ofInterval, Finset.mem_Ico]
  rw [count_eq_card, same, Nat.card_Ico]

theorem count_le {set : QuicIntervalSet Nat} {bound : Nat}
    (below : ∀ offset ∈ set, offset < bound) : set.count ≤ bound := by
  rw [count_eq_card, ← Finset.card_range bound]
  refine Finset.card_le_card fun offset membership => ?_
  exact Finset.mem_range.mpr (below offset (mem_iff_offsets.mp membership))

theorem mem_of_count_eq {set : QuicIntervalSet Nat} {bound : Nat}
    (below : ∀ offset ∈ set, offset < bound) (all : set.count = bound) {offset : Nat}
    (isBelow : offset < bound) : offset ∈ set := by
  have contained : offsets set.intervals ⊆ Finset.range bound := fun offset membership =>
    Finset.mem_range.mpr (below offset (mem_iff_offsets.mp membership))
  have same := Finset.eq_of_subset_of_card_le contained (by
    rw [Finset.card_range, ← all, count_eq_card])
  rw [← mem_iff_offsets, same]
  exact Finset.mem_range.mpr isBelow

end QuicIntervalSet

end Ns3Quic.Stream
