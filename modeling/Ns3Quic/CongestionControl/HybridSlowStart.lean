import Ns3Quic.CongestionControl.QuicTypes
import Mathlib.Data.List.Induction
import Mathlib.Order.Lattice

/-!
# Hybrid slow start

`HybridSlowStart` ends slow start before losses do.  It cuts the
acknowledgements into rounds: a round begins with a round-trip time sample and
ends when the packet is acknowledged that was the last one sent at its
beginning.  If the first eight samples of a round all exceed the minimum of the
connection by a threshold, then the delay has increased.

The class keeps a counter and a minimum.  They are compared with the samples of
all rounds.
-/

namespace Ns3Quic.CongestionControl

/-- In packets. -/
def kHybridStartLowWindow : Nat := 16

def kHybridStartMinSamples : Nat := 8

def kHybridStartDelayFactorExp : Nat := 3

def kHybridStartDelayMinThresholdUs : Nat := 4000

def kHybridStartDelayMaxThresholdUs : Nat := 16000

inductive HystartState where
  | notFound
  /-- Too much increase in the minimum of a round was observed. -/
  | delay
  deriving DecidableEq

structure HybridSlowStart where
  started : Bool
  hystartFound : HystartState
  lastSentPacketNumber : Option Nat
  endPacketNumber : Option Nat
  /-- An unsigned 32-bit number. -/
  rttSampleCount : Nat
  /-- Zero if there is no sample. -/
  currentMinRtt : Nat
  deriving DecidableEq

namespace HybridSlowStart

def create : HybridSlowStart := ⟨false, .notFound, none, none, 0, 0⟩

def isEndOfRound (slowStart : HybridSlowStart) (ack : Nat) : Bool :=
  slowStart.endPacketNumber.all fun last => decide (last ≤ ack)

def onPacketAcked (slowStart : HybridSlowStart) (ackedPacketNumber : Nat) : HybridSlowStart :=
  if slowStart.isEndOfRound ackedPacketNumber then
    { slowStart with started := false }
  else
    slowStart

def onPacketSent (slowStart : HybridSlowStart) (packetNumber : Nat) : HybridSlowStart :=
  { slowStart with lastSentPacketNumber := some packetNumber }

def restart (slowStart : HybridSlowStart) : HybridSlowStart :=
  { slowStart with started := false, hystartFound := .notFound }

def startReceiveRound (slowStart : HybridSlowStart) (lastSent : Option Nat) : HybridSlowStart :=
  { slowStart with
    endPacketNumber := lastSent
    currentMinRtt := 0
    rttSampleCount := 0
    started := true }

def minRttIncreaseThreshold (minRtt : Nat) : Nat :=
  max (min (minRtt >>> kHybridStartDelayFactorExp) kHybridStartDelayMaxThresholdUs)
    kHybridStartDelayMinThresholdUs

/-- The sample is counted, and one of the first eight enters the minimum. -/
def countSample (slowStart : HybridSlowStart) (latestRtt : Nat) : HybridSlowStart :=
  let rttSampleCount := (slowStart.rttSampleCount + 1) % 2 ^ 32
  { slowStart with
    rttSampleCount := rttSampleCount
    currentMinRtt :=
      if rttSampleCount ≤ kHybridStartMinSamples ∧
          (slowStart.currentMinRtt = 0 ∨ latestRtt < slowStart.currentMinRtt) then
        latestRtt
      else
        slowStart.currentMinRtt }

/-- The check that is made once per round. -/
def detectDelay (slowStart : HybridSlowStart) (minRtt : Nat) : HybridSlowStart :=
  if slowStart.rttSampleCount = kHybridStartMinSamples ∧
      minRtt + minRttIncreaseThreshold minRtt < slowStart.currentMinRtt then
    { slowStart with hystartFound := .delay }
  else
    slowStart

/-- `congestionWindow` is given in packets. -/
def shouldExitSlowStart (slowStart : HybridSlowStart) (latestRtt minRtt congestionWindow : Nat) :
    HybridSlowStart × Bool :=
  let slowStart :=
    if slowStart.started then slowStart
    else slowStart.startReceiveRound slowStart.lastSentPacketNumber
  if slowStart.hystartFound ≠ .notFound then
    (slowStart, true)
  else
    let slowStart := (slowStart.countSample latestRtt).detectDelay minRtt
    (slowStart,
      decide (kHybridStartLowWindow ≤ congestionWindow ∧ slowStart.hystartFound ≠ .notFound))

end HybridSlowStart

inductive HystartCall where
  | packetAcked (ackedPacketNumber : Nat)
  | packetSent (packetNumber : Nat)
  | restart
  | shouldExitSlowStart (latestRtt minRtt congestionWindow : Nat)
  deriving DecidableEq

namespace HybridSlowStart

def perform (slowStart : HybridSlowStart) : HystartCall → HybridSlowStart
  | .packetAcked ackedPacketNumber => slowStart.onPacketAcked ackedPacketNumber
  | .packetSent packetNumber => slowStart.onPacketSent packetNumber
  | .restart => slowStart.restart
  | .shouldExitSlowStart latestRtt minRtt congestionWindow =>
      (slowStart.shouldExitSlowStart latestRtt minRtt congestionWindow).1

def afterCalls (calls : List HystartCall) : HybridSlowStart :=
  calls.foldl perform create

end HybridSlowStart

/-! ## The rounds of a history -/

structure RttSample where
  latestRtt : Nat
  minRtt : Nat
  deriving DecidableEq

/-- The rounds since slow start was last restarted, with all their samples. -/
structure HystartRounds where
  lastSent : Option Nat
  /-- The packet that ends the current round. -/
  roundEnd : Option Nat
  /-- The next sample belongs to the current round. -/
  isOpen : Bool
  current : List RttSample
  earlier : List (List RttSample)
  deriving DecidableEq

namespace HystartRounds

def empty : HystartRounds := ⟨none, none, false, [], []⟩

def begin (rounds : HystartRounds) : HystartRounds :=
  if rounds.isOpen then
    rounds
  else
    { rounds with
      isOpen := true
      roundEnd := rounds.lastSent
      current := []
      earlier := rounds.current :: rounds.earlier }

def add (rounds : HystartRounds) (sample : RttSample) : HystartRounds :=
  { rounds.begin with current := rounds.begin.current ++ [sample] }

/-- The round ends with the packet that was the last one sent at its
beginning, or with any if nothing had been sent. -/
def close (rounds : HystartRounds) (ack : Nat) : HystartRounds :=
  if rounds.roundEnd.all fun last => decide (last ≤ ack) then
    { rounds with isOpen := false }
  else
    rounds

def note (rounds : HystartRounds) : HystartCall → HystartRounds
  | .packetAcked ack => rounds.close ack
  | .packetSent packetNumber => { rounds with lastSent := some packetNumber }
  | .restart => { rounds with isOpen := false, current := [], earlier := [] }
  | .shouldExitSlowStart latestRtt minRtt _ => rounds.add ⟨latestRtt, minRtt⟩

def ofCalls (calls : List HystartCall) : HystartRounds :=
  calls.foldl note empty

end HystartRounds

def RttSample.Above (minRtt : Nat) (sample : RttSample) : Prop :=
  minRtt + HybridSlowStart.minRttIncreaseThreshold minRtt < sample.latestRtt

instance (minRtt : Nat) (sample : RttSample) : Decidable (sample.Above minRtt) :=
  inferInstanceAs (Decidable (_ < _))

/-- The round has eight samples, and the first eight are above the minimum that
is known at the eighth. -/
def Delayed (round : List RttSample) : Prop :=
  ∃ eighth, round[kHybridStartMinSamples - 1]? = some eighth ∧
    ∀ sample ∈ round.take kHybridStartMinSamples, sample.Above eighth.minRtt

instance (round : List RttSample) : Decidable (Delayed round) :=
  decidable_of_iff ((round[kHybridStartMinSamples - 1]?).any fun eighth =>
      decide (∀ sample ∈ round.take kHybridStartMinSamples, sample.Above eighth.minRtt)) <| by
    simp [Delayed, Option.any_eq_true]

section Rounds

variable {round : List RttSample} {sample : RttSample}

theorem not_delayed_nil : ¬ Delayed [] := by
  rintro ⟨_, impossible, _⟩
  exact nomatch impossible

/-- Only the eighth sample can make a round a delayed one. -/
theorem delayed_concat_iff (notEighth : round.length ≠ kHybridStartMinSamples - 1) :
    Delayed (round ++ [sample]) ↔ Delayed round := by
  unfold Delayed kHybridStartMinSamples at *
  rcases lt_or_gt_of_ne notEighth with short | long
  · have neither {samples : List RttSample} (few : samples.length ≤ 7) :
        ¬ ∃ eighth, samples[8 - 1]? = some eighth ∧
          ∀ sample ∈ samples.take 8, sample.Above eighth.minRtt := by
      rintro ⟨_, eighth, _⟩
      rw [List.getElem?_eq_none few] at eighth
      cases eighth
    exact iff_of_false (neither (by simp; omega)) (neither (by omega))
  · rw [List.getElem?_append_left (by omega), List.take_append_of_le_length (by omega)]

theorem delayed_concat_eighth (eighth : round.length = kHybridStartMinSamples - 1) :
    Delayed (round ++ [sample]) ↔ ∀ each ∈ round ++ [sample], each.Above sample.minRtt := by
  have last : (round ++ [sample])[kHybridStartMinSamples - 1]? = some sample := by
    rw [← eighth]
    simp
  have all : (round ++ [sample]).take kHybridStartMinSamples = round ++ [sample] := by
    apply List.take_of_length_le
    rw [List.length_append, eighth]
    exact le_refl _
  unfold Delayed
  rw [last, all]
  simp

theorem Delayed.concat (delayed : Delayed round) (sample : RttSample) :
    Delayed (round ++ [sample]) := by
  refine (delayed_concat_iff fun short => ?_).mpr delayed
  obtain ⟨_, eighth, _⟩ := delayed
  rw [List.getElem?_eq_none (le_of_eq short)] at eighth
  cases eighth

end Rounds

namespace HystartRounds

def DelayFound (rounds : HystartRounds) : Prop :=
  Delayed rounds.current ∨ ∃ round ∈ rounds.earlier, Delayed round

instance (rounds : HystartRounds) : Decidable rounds.DelayFound :=
  inferInstanceAs (Decidable (_ ∨ _))

variable {rounds : HystartRounds}

theorem delayFound_begin : rounds.begin.DelayFound ↔ rounds.DelayFound := by
  unfold begin
  split
  next => exact Iff.rfl
  next => simp [DelayFound, not_delayed_nil]

end HystartRounds

namespace HybridSlowStart

open HystartRounds (DelayFound)

variable {slowStart : HybridSlowStart} {rounds : HystartRounds} {latestRtt minRtt : Nat}

structure Counts (slowStart : HybridSlowStart) (round : List RttSample) : Prop where
  count : slowStart.rttSampleCount = round.length
  unset : round = [] → slowStart.currentMinRtt = 0
  below : ∀ sample ∈ round.take kHybridStartMinSamples,
    slowStart.currentMinRtt ≤ sample.latestRtt
  sampled : round ≠ [] →
    ∃ sample ∈ round.take kHybridStartMinSamples, slowStart.currentMinRtt = sample.latestRtt

structure Follows (slowStart : HybridSlowStart) (rounds : HystartRounds) : Prop where
  lastSent : slowStart.lastSentPacketNumber = rounds.lastSent
  roundEnd : slowStart.endPacketNumber = rounds.roundEnd
  started : slowStart.started = rounds.isOpen
  found : slowStart.hystartFound ≠ .notFound ↔ rounds.DelayFound
  positive : ∀ sample ∈ rounds.current, 0 < sample.latestRtt
  counts : rounds.isOpen = true → slowStart.hystartFound = .notFound →
    slowStart.Counts rounds.current

theorem follows_create : create.Follows .empty where
  lastSent := rfl
  roundEnd := rfl
  started := rfl
  found := by simp [create, HystartRounds.empty, DelayFound, not_delayed_nil]
  positive := by simp [HystartRounds.empty]
  counts := fun impossible => nomatch impossible

def begin (slowStart : HybridSlowStart) : HybridSlowStart :=
  if slowStart.started then slowStart
  else slowStart.startReceiveRound slowStart.lastSentPacketNumber

theorem Follows.begin (follows : slowStart.Follows rounds) :
    slowStart.begin.Follows rounds.begin ∧ rounds.begin.isOpen = true := by
  unfold HybridSlowStart.begin HystartRounds.begin
  rw [follows.started]
  split
  next isOpen => exact ⟨follows, isOpen⟩
  next closed =>
    refine ⟨⟨follows.lastSent, follows.lastSent, rfl, ?_, by simp, fun _ _ => ?_⟩, rfl⟩
    · rw [show (slowStart.startReceiveRound slowStart.lastSentPacketNumber).hystartFound =
        slowStart.hystartFound from rfl, follows.found]
      simp [DelayFound, not_delayed_nil]
    · exact ⟨rfl, fun _ => rfl, by simp, by simp⟩

section Counting

variable {round : List RttSample}

theorem Counts.min_pos (counts : slowStart.Counts round) (nonempty : round ≠ [])
    (positive : ∀ sample ∈ round, 0 < sample.latestRtt) : 0 < slowStart.currentMinRtt := by
  obtain ⟨sample, present, same⟩ := counts.sampled nonempty
  rw [same]
  exact positive sample (List.mem_of_mem_take present)

theorem Counts.countSample_few (counts : slowStart.Counts round)
    (few : round.length + 1 ≤ kHybridStartMinSamples)
    (positive : ∀ sample ∈ round, 0 < sample.latestRtt) :
    (slowStart.countSample latestRtt).Counts (round ++ [⟨latestRtt, minRtt⟩]) := by
  have counted : (slowStart.rttSampleCount + 1) % 2 ^ 32 = round.length + 1 := by
    rw [counts.count]
    exact Nat.mod_eq_of_lt (lt_of_le_of_lt few (by decide))
  have allOld : round.take kHybridStartMinSamples = round :=
    List.take_of_length_le (Nat.le_of_succ_le few)
  have all : (round ++ [(⟨latestRtt, minRtt⟩ : RttSample)]).take kHybridStartMinSamples =
      round ++ [⟨latestRtt, minRtt⟩] := List.take_of_length_le (by simpa using few)
  have below := counts.below
  have sampled := counts.sampled
  rw [allOld] at below sampled
  unfold HybridSlowStart.countSample
  simp only [counted, few, true_and]
  refine ⟨by simp, fun impossible => absurd impossible (by simp), ?_, fun _ => ?_⟩
  · rw [all]
    intro sample present
    split
    next better =>
      rcases List.mem_append.mp present with old | new
      · rcases better with zero | less
        · exact absurd zero (counts.min_pos (List.ne_nil_of_mem old) positive).ne'
        · exact less.le.trans (below sample old)
      · rw [List.mem_singleton.mp new]
    next worse =>
      rcases List.mem_append.mp present with old | new
      · exact below sample old
      · rw [List.mem_singleton.mp new]
        exact not_lt.mp (not_or.mp worse).2
  · rw [all]
    split
    next => exact ⟨_, List.mem_append_right _ (List.mem_singleton_self _), rfl⟩
    next worse =>
      have nonempty : round ≠ [] := fun empty => worse (Or.inl (counts.unset empty))
      obtain ⟨sample, present, same⟩ := sampled nonempty
      exact ⟨sample, List.mem_append_left _ present, same⟩

theorem Counts.countSample_many (counts : slowStart.Counts round)
    (many : kHybridStartMinSamples ≤ round.length) (fits : round.length + 1 < 2 ^ 32) :
    (slowStart.countSample latestRtt).Counts (round ++ [⟨latestRtt, minRtt⟩]) := by
  have counted : (slowStart.rttSampleCount + 1) % 2 ^ 32 = round.length + 1 := by
    rw [counts.count]
    exact Nat.mod_eq_of_lt fits
  have nonempty : round ≠ [] := by
    rintro rfl
    exact absurd many (by decide)
  unfold HybridSlowStart.countSample
  simp only [counted, not_le.mpr (Nat.lt_succ_of_le many), false_and, if_false]
  refine ⟨by simp, fun impossible => absurd impossible (by simp), ?_, fun _ => ?_⟩
  · rw [List.take_append_of_le_length many]
    exact counts.below
  · rw [List.take_append_of_le_length many]
    exact counts.sampled nonempty

theorem Counts.countSample (counts : slowStart.Counts round)
    (fits : round.length + 1 < 2 ^ 32) (positive : ∀ sample ∈ round, 0 < sample.latestRtt) :
    (slowStart.countSample latestRtt).Counts (round ++ [⟨latestRtt, minRtt⟩]) := by
  rcases Nat.lt_or_ge round.length kHybridStartMinSamples with few | many
  · exact counts.countSample_few few positive
  · exact counts.countSample_many many fits

/-- The check at the eighth sample is about all samples up to it. -/
theorem Counts.above_iff (counts : slowStart.Counts round) (nonempty : round ≠ []) :
    minRtt + minRttIncreaseThreshold minRtt < slowStart.currentMinRtt ↔
      ∀ sample ∈ round.take kHybridStartMinSamples, sample.Above minRtt := by
  constructor
  · intro above sample present
    exact above.trans_le (counts.below sample present)
  · intro all
    obtain ⟨sample, present, same⟩ := counts.sampled nonempty
    rw [same]
    exact all sample present

theorem Counts.detectDelay
    (counts : slowStart.Counts (round ++ [⟨latestRtt, minRtt⟩]))
    (undetected : slowStart.hystartFound = .notFound) (timely : ¬ Delayed round) :
    (slowStart.detectDelay minRtt).hystartFound ≠ .notFound ↔
      Delayed (round ++ [⟨latestRtt, minRtt⟩]) := by
  have condition : slowStart.rttSampleCount = kHybridStartMinSamples ∧
      minRtt + minRttIncreaseThreshold minRtt < slowStart.currentMinRtt ↔
      Delayed (round ++ [⟨latestRtt, minRtt⟩]) := by
    rw [counts.above_iff (by simp), counts.count, List.length_append, List.length_singleton]
    by_cases eighth : round.length = kHybridStartMinSamples - 1
    · have full : round.length + 1 = kHybridStartMinSamples := by
        rw [eighth]
        rfl
      rw [delayed_concat_eighth eighth, List.take_of_length_le (by simp [full])]
      exact and_iff_right full
    · rw [delayed_concat_iff eighth]
      refine iff_of_false (fun both => eighth ?_) timely
      rw [← both.1]
      rfl
  unfold HybridSlowStart.detectDelay
  rw [← condition]
  split
  next detected => exact iff_of_true (by simp) detected
  next kept => exact iff_of_false (by simp [undetected]) kept

end Counting

/-! ## Whole histories -/

theorem shouldExitSlowStart_eq (slowStart : HybridSlowStart)
    (latestRtt minRtt congestionWindow : Nat) :
    slowStart.shouldExitSlowStart latestRtt minRtt congestionWindow =
      if slowStart.begin.hystartFound ≠ .notFound then
        (slowStart.begin, true)
      else
        ((slowStart.begin.countSample latestRtt).detectDelay minRtt,
          decide (kHybridStartLowWindow ≤ congestionWindow ∧
            ((slowStart.begin.countSample latestRtt).detectDelay minRtt).hystartFound ≠
              .notFound)) :=
  rfl

theorem detectDelay_frame (slowStart : HybridSlowStart) (minRtt : Nat) :
    ∃ found, slowStart.detectDelay minRtt = { slowStart with hystartFound := found } := by
  unfold detectDelay
  split
  next => exact ⟨.delay, rfl⟩
  next => exact ⟨slowStart.hystartFound, rfl⟩

theorem Follows.sample (follows : slowStart.Follows rounds) (isOpen : rounds.isOpen = true)
    (undetected : slowStart.hystartFound = .notFound)
    (fits : rounds.current.length + 1 < 2 ^ 32) (positive : 0 < latestRtt) :
    ((slowStart.countSample latestRtt).detectDelay minRtt).Follows
      { rounds with current := rounds.current ++ [⟨latestRtt, minRtt⟩] } := by
  have notFound : ¬ rounds.DelayFound := fun found => follows.found.mpr found undetected
  obtain ⟨timely, earlier⟩ := not_or.mp notFound
  have counts : (slowStart.countSample latestRtt).Counts
      (rounds.current ++ [⟨latestRtt, minRtt⟩]) :=
    (follows.counts isOpen undetected).countSample fits follows.positive
  have found := counts.detectDelay undetected timely
  obtain ⟨_, shape⟩ := (slowStart.countSample latestRtt).detectDelay_frame minRtt
  rw [shape] at found ⊢
  refine ⟨follows.lastSent, follows.roundEnd, follows.started, ?_, ?_, fun _ _ => { counts with }⟩
  · exact found.trans (or_iff_left earlier).symm
  · intro sample present
    rcases List.mem_append.mp present with old | new
    · exact follows.positive sample old
    · rw [List.mem_singleton.mp new]
      exact positive

theorem Follows.ignore (follows : slowStart.Follows rounds)
    (detected : slowStart.hystartFound ≠ .notFound) (positive : 0 < latestRtt) :
    slowStart.Follows { rounds with current := rounds.current ++ [⟨latestRtt, minRtt⟩] } := by
  refine ⟨follows.lastSent, follows.roundEnd, follows.started, ?_, ?_,
    fun _ undetected => absurd undetected detected⟩
  · refine iff_of_true detected ?_
    rcases follows.found.mp detected with now | before
    · exact Or.inl (now.concat _)
    · exact Or.inr before
  · intro sample present
    rcases List.mem_append.mp present with old | new
    · exact follows.positive sample old
    · rw [List.mem_singleton.mp new]
      exact positive

theorem Follows.shouldExitSlowStart (follows : slowStart.Follows rounds)
    (fits : rounds.begin.current.length + 1 < 2 ^ 32) (positive : 0 < latestRtt)
    (congestionWindow : Nat) :
    (slowStart.shouldExitSlowStart latestRtt minRtt congestionWindow).1.Follows
        (rounds.add ⟨latestRtt, minRtt⟩) ∧
      ((slowStart.shouldExitSlowStart latestRtt minRtt congestionWindow).2 = true ↔
        rounds.DelayFound ∨ (rounds.add ⟨latestRtt, minRtt⟩).DelayFound ∧
          kHybridStartLowWindow ≤ congestionWindow) := by
  obtain ⟨begun, isOpen⟩ := follows.begin
  have before := @HystartRounds.delayFound_begin rounds
  rw [shouldExitSlowStart_eq]
  split
  next detected =>
    exact ⟨begun.ignore detected positive,
      iff_of_true rfl (Or.inl (before.mp (begun.found.mp detected)))⟩
  next undetected =>
    have sampled : ((slowStart.begin.countSample latestRtt).detectDelay minRtt).Follows
        (rounds.add ⟨latestRtt, minRtt⟩) :=
      begun.sample isOpen (not_not.mp undetected) fits positive
    refine ⟨sampled, ?_⟩
    rw [decide_eq_true_iff, sampled.found, and_comm]
    have notBefore : ¬ rounds.DelayFound := fun found =>
      undetected (begun.found.mpr (before.mpr found))
    exact (or_iff_right notBefore).symm

theorem Follows.onPacketAcked (follows : slowStart.Follows rounds) (ack : Nat) :
    (slowStart.onPacketAcked ack).Follows (rounds.close ack) := by
  unfold HybridSlowStart.onPacketAcked isEndOfRound HystartRounds.close
  rw [← follows.roundEnd]
  split
  next =>
    exact { follows with
      roundEnd := rfl
      started := rfl
      counts := fun impossible => nomatch impossible }
  next => exact follows

theorem Follows.restart (follows : slowStart.Follows rounds) :
    slowStart.restart.Follows (rounds.note .restart) where
  lastSent := follows.lastSent
  roundEnd := follows.roundEnd
  started := rfl
  found := by simp [HybridSlowStart.restart, HystartRounds.note, DelayFound, not_delayed_nil]
  positive := by simp [HystartRounds.note]
  counts := fun impossible => nomatch impossible

end HybridSlowStart

def HystartCall.Measured : HystartCall → Prop
  | .shouldExitSlowStart latestRtt _ _ => 0 < latestRtt
  | .packetAcked _ | .packetSent _ | .restart => True

instance (call : HystartCall) : Decidable call.Measured :=
  match call with
  | .shouldExitSlowStart latestRtt _ _ => inferInstanceAs (Decidable (0 < latestRtt))
  | .packetAcked _ | .packetSent _ | .restart => inferInstanceAs (Decidable True)

namespace HybridSlowStart

variable {slowStart : HybridSlowStart} {rounds : HystartRounds} {call : HystartCall}
  {calls : List HystartCall}

theorem length_begin_le (rounds : HystartRounds) :
    rounds.begin.current.length ≤ rounds.current.length := by
  unfold HystartRounds.begin
  split
  next => exact le_refl _
  next => exact Nat.zero_le _

theorem length_note_le (rounds : HystartRounds) (call : HystartCall) :
    (rounds.note call).current.length ≤ rounds.current.length + 1 := by
  cases call with
  | packetAcked ack =>
      rw [HystartRounds.note, HystartRounds.close]
      split
      next => exact Nat.le_succ _
      next => exact Nat.le_succ _
  | packetSent packetNumber => exact Nat.le_succ _
  | restart => exact Nat.zero_le _
  | shouldExitSlowStart latestRtt minRtt congestionWindow =>
      have begun := length_begin_le rounds
      simpa [HystartRounds.note, HystartRounds.add] using begun

theorem Follows.perform (follows : slowStart.Follows rounds)
    (fits : rounds.current.length + 1 < 2 ^ 32) (measured : call.Measured) :
    (slowStart.perform call).Follows (rounds.note call) := by
  cases call with
  | packetAcked ack => exact follows.onPacketAcked ack
  | packetSent packetNumber =>
      exact { follows with
        lastSent := rfl
        counts := fun isOpen undetected => { follows.counts isOpen undetected with } }
  | restart => exact follows.restart
  | shouldExitSlowStart latestRtt minRtt congestionWindow =>
      have begun := lt_of_le_of_lt (Nat.succ_le_succ (length_begin_le rounds)) fits
      exact (follows.shouldExitSlowStart begun measured congestionWindow).1

theorem follows_afterCalls (measured : ∀ call ∈ calls, call.Measured)
    (fits : calls.length < 2 ^ 32) :
    (afterCalls calls).Follows (.ofCalls calls) ∧
      (HystartRounds.ofCalls calls).current.length ≤ calls.length := by
  induction calls using List.reverseRecOn with
  | nil => exact ⟨follows_create, le_refl _⟩
  | append_singleton calls call inductionHypothesis =>
      rw [List.length_append, List.length_singleton] at fits ⊢
      obtain ⟨follows, few⟩ := inductionHypothesis
        (fun earlier present => measured earlier (List.mem_append_left _ present))
        (Nat.lt_of_succ_lt fits)
      unfold afterCalls HystartRounds.ofCalls
      rw [List.foldl_append, List.foldl_append]
      refine ⟨follows.perform (lt_of_le_of_lt (Nat.succ_le_succ few) fits) ?_,
        (length_note_le _ _).trans (Nat.succ_le_succ few)⟩
      exact measured call (List.mem_append_right _ (List.mem_singleton_self _))

/-- After every history, slow start is to be left exactly if a round since the
last restart was a delayed one before the call, or becomes one with its sample
and the window is large enough.  The size of the window is looked at only in the
call that finds the delay. -/
theorem exit_iff_round_delayed (measured : ∀ call ∈ calls, call.Measured)
    (fits : calls.length + 1 < 2 ^ 32) {latestRtt : Nat} (positive : 0 < latestRtt)
    (minRtt congestionWindow : Nat) :
    ((afterCalls calls).shouldExitSlowStart latestRtt minRtt congestionWindow).2 = true ↔
      (HystartRounds.ofCalls calls).DelayFound ∨
        (HystartRounds.ofCalls
          (calls ++ [.shouldExitSlowStart latestRtt minRtt congestionWindow])).DelayFound ∧
        kHybridStartLowWindow ≤ congestionWindow := by
  obtain ⟨follows, few⟩ := follows_afterCalls measured (Nat.lt_of_succ_lt fits)
  have begun := (length_begin_le (.ofCalls calls)).trans few
  have extended : HystartRounds.ofCalls
      (calls ++ [.shouldExitSlowStart latestRtt minRtt congestionWindow]) =
        (HystartRounds.ofCalls calls).add ⟨latestRtt, minRtt⟩ := List.foldl_append
  rw [extended]
  exact (follows.shouldExitSlowStart (lt_of_le_of_lt (Nat.succ_le_succ begun) fits) positive
    congestionWindow).2

/-- A window of ten packets keeps the eighth sample from ending slow start, but
not the ninth. -/
theorem exit_iff_round_delayed_small_window :
    let sample := HystartCall.shouldExitSlowStart 200000 100000 10
    ((afterCalls (List.replicate 7 sample)).shouldExitSlowStart 200000 100000 10).2 = false ∧
      ((afterCalls (List.replicate 8 sample)).shouldExitSlowStart 200000 100000 10).2 = true :=
  ⟨by decide +kernel, (exit_iff_round_delayed (by decide) (by decide) (by decide) _ _).mpr
    (Or.inl (by decide +kernel))⟩

end HybridSlowStart

end Ns3Quic.CongestionControl
