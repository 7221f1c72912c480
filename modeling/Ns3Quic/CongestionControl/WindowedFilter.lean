import Ns3Quic.CongestionControl.QuicTypes
import Mathlib.Order.Lattice

/-!
# The windowed filter

`WindowedFilter` estimates the best sample of a sliding window from three
samples, the best, the second best and the third best of disjoint parts of the
window.  Time stamps are unsigned 64-bit numbers.
-/

namespace Ns3Quic.CongestionControl

universe u

structure Sample (T : Type u) where
  sample : T
  time : Nat
  deriving DecidableEq

structure WindowedFilter (T : Type u) where
  windowLength : Nat
  zeroValue : T
  best : Sample T
  second : Sample T
  third : Sample T
  deriving DecidableEq

namespace WindowedFilter

variable {T : Type u}

def create (windowLength : Nat) (zeroValue : T) (zeroTime : Nat) : WindowedFilter T :=
  ⟨windowLength, zeroValue, ⟨zeroValue, zeroTime⟩, ⟨zeroValue, zeroTime⟩, ⟨zeroValue, zeroTime⟩⟩

def reset (filter : WindowedFilter T) (newSample : T) (newTime : Nat) : WindowedFilter T :=
  { filter with
    best := ⟨newSample, newTime⟩
    second := ⟨newSample, newTime⟩
    third := ⟨newSample, newTime⟩ }

/-- `new_time - estimate.time > length`, for an estimate of the filter. -/
def olderThan (length : Nat) (estimate : Sample T) (newTime : Nat) : Bool :=
  decide (length < subU64 newTime estimate.time)

variable [DecidableEq T]

/-- The new sample replaces the second and third estimate that it beats. -/
def replaceWorse (compare : T → T → Bool) (filter : WindowedFilter T) (newSample : T)
    (newTime : Nat) : WindowedFilter T :=
  if compare newSample filter.second.sample then
    { filter with second := ⟨newSample, newTime⟩, third := ⟨newSample, newTime⟩ }
  else if compare newSample filter.third.sample then
    { filter with third := ⟨newSample, newTime⟩ }
  else
    filter

/-- The part of `Update` that expires and refreshes estimates. -/
def expire (filter : WindowedFilter T) (newSample : T) (newTime : Nat) : WindowedFilter T :=
  if olderThan filter.windowLength filter.best newTime then
    let promoted := { filter with
      best := filter.second, second := filter.third, third := ⟨newSample, newTime⟩ }
    if olderThan filter.windowLength promoted.best newTime then
      { promoted with best := promoted.second, second := promoted.third }
    else
      promoted
  else if filter.second.sample = filter.best.sample ∧
      olderThan (filter.windowLength / 4) filter.second newTime then
    { filter with second := ⟨newSample, newTime⟩, third := ⟨newSample, newTime⟩ }
  else if filter.third.sample = filter.second.sample ∧
      olderThan (filter.windowLength / 2) filter.third newTime then
    { filter with third := ⟨newSample, newTime⟩ }
  else
    filter

/-- `compare left right` says that `left` is at least as good as `right`. -/
def update (compare : T → T → Bool) (filter : WindowedFilter T) (newSample : T)
    (newTime : Nat) : WindowedFilter T :=
  if filter.best.sample = filter.zeroValue ∨ compare newSample filter.best.sample ∨
      olderThan filter.windowLength filter.third newTime then
    filter.reset newSample newTime
  else
    (filter.replaceWorse compare newSample newTime).expire newSample newTime

def getBest (filter : WindowedFilter T) : T := filter.best.sample

/-- The shape of an update that does not reset: at most the new sample enters,
and the estimates only move towards the best. -/
theorem update_eq (compare : T → T → Bool) (filter : WindowedFilter T) (newSample : T)
    (newTime : Nat) :
    filter.update compare newSample newTime = filter.reset newSample newTime ∨
      (filter.best.sample ≠ filter.zeroValue ∧ compare newSample filter.best.sample = false ∧
        olderThan filter.windowLength filter.third newTime = false ∧
        filter.update compare newSample newTime =
          (filter.replaceWorse compare newSample newTime).expire newSample newTime) := by
  unfold update
  split
  next => exact Or.inl rfl
  next kept =>
    simp only [not_or, Bool.not_eq_true] at kept
    exact Or.inr ⟨kept.1, kept.2.1, kept.2.2, rfl⟩

def Forall (property : Sample T → Prop) (filter : WindowedFilter T) : Prop :=
  property filter.best ∧ property filter.second ∧ property filter.third

omit [DecidableEq T] in
theorem forall_replaceWorse {property : Sample T → Prop} {filter : WindowedFilter T}
    (compare : T → T → Bool) {newSample : T} {newTime : Nat} (old : filter.Forall property)
    (new : property ⟨newSample, newTime⟩) :
    (filter.replaceWorse compare newSample newTime).Forall property := by
  unfold replaceWorse
  obtain ⟨best, second, third⟩ := old
  split
  next => exact ⟨best, new, new⟩
  next =>
    split
    next => exact ⟨best, second, new⟩
    next => exact ⟨best, second, third⟩

theorem forall_expire {property : Sample T → Prop} {filter : WindowedFilter T}
    {newSample : T} {newTime : Nat} (old : filter.Forall property)
    (new : property ⟨newSample, newTime⟩) :
    (filter.expire newSample newTime).Forall property := by
  unfold expire
  obtain ⟨best, second, third⟩ := old
  split
  next =>
    dsimp only
    split
    next => exact ⟨third, new, new⟩
    next => exact ⟨second, third, new⟩
  next =>
    split
    next => exact ⟨best, new, new⟩
    next =>
      split
      next => exact ⟨best, second, new⟩
      next => exact ⟨best, second, third⟩

theorem forall_update {property : Sample T → Prop} {filter : WindowedFilter T}
    (compare : T → T → Bool) {newSample : T} {newTime : Nat} (old : filter.Forall property)
    (new : property ⟨newSample, newTime⟩) :
    (filter.update compare newSample newTime).Forall property := by
  rcases filter.update_eq compare newSample newTime with resets | ⟨_, _, _, shape⟩
  · rw [resets]
    exact ⟨new, new, new⟩
  · rw [shape]
    exact forall_expire (forall_replaceWorse compare old new) new

theorem update_constants (compare : T → T → Bool) (filter : WindowedFilter T) (newSample : T)
    (newTime : Nat) :
    (filter.update compare newSample newTime).windowLength = filter.windowLength ∧
      (filter.update compare newSample newTime).zeroValue = filter.zeroValue := by
  unfold update
  split
  next => exact ⟨rfl, rfl⟩
  next =>
    unfold expire replaceWorse
    dsimp only
    repeat' split
    all_goals exact ⟨rfl, rfl⟩

end WindowedFilter

def minFilter {T : Type u} [LE T] [DecidableLE T] (left right : T) : Bool :=
  decide (left ≤ right)

namespace WindowedFilter

section Minimum

variable {T : Type u} [LinearOrder T] {filter : WindowedFilter T} {newSample : T}
  {newTime : Nat}

/-- The estimates get worse from the best to the third. -/
def Sorted (filter : WindowedFilter T) : Prop :=
  filter.best.sample ≤ filter.second.sample ∧ filter.second.sample ≤ filter.third.sample

theorem Sorted.resize (sorted : filter.Sorted) (windowLength : Nat) :
    { filter with windowLength := windowLength }.Sorted := sorted

theorem sorted_replaceWorse (sorted : filter.Sorted)
    (worse : minFilter newSample filter.best.sample = false) :
    (filter.replaceWorse minFilter newSample newTime).Sorted ∧
      (filter.replaceWorse minFilter newSample newTime).third.sample ≤ newSample := by
  simp only [minFilter, decide_eq_false_iff_not, not_le] at worse
  unfold replaceWorse
  simp only [minFilter, decide_eq_true_eq]
  split
  next => exact ⟨⟨worse.le, le_refl _⟩, le_refl _⟩
  next behindSecond =>
    split
    next => exact ⟨⟨sorted.1, (not_le.mp behindSecond).le⟩, le_refl _⟩
    next behindThird => exact ⟨sorted, (not_le.mp behindThird).le⟩

theorem sorted_expire (sorted : filter.Sorted) (last : filter.third.sample ≤ newSample) :
    (filter.expire newSample newTime).Sorted ∧
      (filter.expire newSample newTime).best.sample ≤ newSample := by
  have best := (sorted.1.trans sorted.2).trans last
  unfold expire
  split
  next =>
    dsimp only
    split
    next => exact ⟨⟨last, le_refl _⟩, last⟩
    next => exact ⟨⟨sorted.2, last⟩, sorted.2.trans last⟩
  next =>
    split
    next => exact ⟨⟨best, le_refl _⟩, best⟩
    next =>
      split
      next => exact ⟨⟨sorted.1, sorted.2.trans last⟩, best⟩
      next => exact ⟨sorted, best⟩

theorem sorted_update (sorted : filter.Sorted) :
    (filter.update minFilter newSample newTime).Sorted ∧
      (filter.update minFilter newSample newTime).getBest ≤ newSample := by
  unfold getBest
  rcases filter.update_eq minFilter newSample newTime with resets | ⟨_, worse, _, shape⟩
  · rw [resets]
    exact ⟨⟨le_refl _, le_refl _⟩, le_refl _⟩
  · rw [shape]
    obtain ⟨replaced, last⟩ := sorted_replaceWorse sorted worse
    exact sorted_expire replaced last

theorem update_measured (sorted : filter.Sorted) (least : ∀ value, filter.zeroValue ≤ value)
    (measures : newSample ≠ filter.zeroValue) :
    (filter.update minFilter newSample newTime).best.sample ≠ filter.zeroValue := by
  rcases filter.update_eq minFilter newSample newTime with resets | ⟨measured, _, _, _⟩
  · rw [resets]
    exact measures
  · have first : filter.zeroValue < filter.best.sample := lt_of_le_of_ne (least _) measured.symm
    have second := first.trans_le sorted.1
    have all : filter.Forall fun estimate => estimate.sample ≠ filter.zeroValue :=
      ⟨measured, second.ne', (second.trans_le sorted.2).ne'⟩
    exact (forall_update minFilter all measures).1

end Minimum

section Times

variable {T : Type u} [DecidableEq T] {filter : WindowedFilter T} {compare : T → T → Bool}
  {newSample : T} {now newTime : Nat}

/-- The estimates get younger from the best to the third. -/
def Aged (filter : WindowedFilter T) (now : Nat) : Prop :=
  filter.best.time ≤ filter.second.time ∧ filter.second.time ≤ filter.third.time ∧
    filter.third.time ≤ now

omit [DecidableEq T] in
theorem aged_replaceWorse (aged : filter.Aged now) (later : now ≤ newTime) :
    (filter.replaceWorse compare newSample newTime).Aged newTime := by
  obtain ⟨first, second, third⟩ := aged
  unfold replaceWorse Aged
  split
  next => exact ⟨by dsimp only; omega, le_refl _, le_refl _⟩
  next =>
    split
    next => exact ⟨first, by dsimp only; omega, le_refl _⟩
    next => exact ⟨first, second, by omega⟩

theorem aged_expire (aged : filter.Aged newTime) :
    (filter.expire newSample newTime).Aged newTime := by
  obtain ⟨first, second, third⟩ := aged
  unfold expire
  split
  next =>
    dsimp only
    split
    next => exact ⟨third, le_refl _, le_refl _⟩
    next => exact ⟨second, third, le_refl _⟩
  next =>
    split
    next => exact ⟨(first.trans second).trans third, le_refl _, le_refl _⟩
    next =>
      split
      next => exact ⟨first, second.trans third, le_refl _⟩
      next => exact ⟨first, second, third⟩

theorem aged_update (aged : filter.Aged now) (later : now ≤ newTime) :
    (filter.update compare newSample newTime).Aged newTime := by
  rcases filter.update_eq compare newSample newTime with resets | ⟨_, _, _, shape⟩
  · rw [resets]
    exact ⟨le_refl _, le_refl _, le_refl _⟩
  · rw [shape]
    exact aged_expire (aged_replaceWorse aged later)

omit [DecidableEq T] in
theorem Aged.third_recent (aged : filter.Aged now) (later : now ≤ newTime)
    (fits : newTime < 2 ^ 64) {length : Nat}
    (recent : olderThan length filter.best newTime = false) :
    olderThan length filter.third newTime = false := by
  obtain ⟨first, second, third⟩ := aged
  simp only [olderThan, decide_eq_false_iff_not, not_lt] at recent ⊢
  rw [subU64_of_le (by omega) fits] at recent ⊢
  omega

/-- An update in which the best estimate has not expired replaces it only by a
better sample. -/
theorem getBest_update_of_recent (aged : filter.Aged now) (later : now ≤ newTime)
    (fits : newTime < 2 ^ 64) (initialized : filter.best.sample ≠ filter.zeroValue)
    (recent : olderThan filter.windowLength filter.best newTime = false) :
    (filter.update compare newSample newTime).getBest =
      if compare newSample filter.best.sample then newSample else filter.getBest := by
  have thirdRecent := aged.third_recent later fits recent
  unfold getBest update
  split
  next resets =>
    have better : compare newSample filter.best.sample = true := by
      rcases resets with zero | better | expired
      · exact absurd zero initialized
      · exact better
      · simp [thirdRecent] at expired
    rw [if_pos better]
    rfl
  next kept =>
    simp only [not_or, Bool.not_eq_true] at kept
    have sameBest : (filter.replaceWorse compare newSample newTime).best = filter.best ∧
        (filter.replaceWorse compare newSample newTime).windowLength =
          filter.windowLength := by
      unfold replaceWorse
      split
      next => exact ⟨rfl, rfl⟩
      next => split <;> exact ⟨rfl, rfl⟩
    rw [if_neg (by simp [kept.2.1])]
    unfold expire
    rw [sameBest.1, sameBest.2, recent, if_neg (by simp)]
    split
    next => rfl
    next =>
      split
      next => rfl
      next => exact congrArg Sample.sample sameBest.1

end Times

end WindowedFilter

end Ns3Quic.CongestionControl
