import Ns3Quic.CongestionControl.CopaChecks
import Ns3Quic.CongestionControl.FilterAccuracy
import Ns3Quic.Lib.BinaryRounding

/-!
# What the decisions of Copa rest on

The filters of a sender hold what the round-trip times of its congestion events
make of them, so a decision can be read off the events: the minimum is taken
over ten seconds, the standing round-trip time over half of the smoothed one.
The rates that are compared are quotients of doubles.  Truncated to integers they
are exact while the window times a million needs no rounding.
-/

namespace Ns3Quic.CongestionControl

open TransitionSystem WindowedFilter

def CopaAction.event : CopaAction → Option CopaEvent
  | .congestionEvent event => some event
  | .packetSent _ | .setInitialCongestionWindowInPackets _ => none

namespace CopaEvent

def minRttUpdate (event : CopaEvent) : FilterUpdate Nat :=
  ⟨CopaSender.minRttWindowLength, event.latestRtt, event.eventTime⟩

def standingRttUpdate (event : CopaEvent) : FilterUpdate Nat :=
  ⟨event.smoothedRtt / 2, event.latestRtt, event.eventTime⟩

structure Timely (events : List CopaEvent) : Prop where
  positive : ∀ event ∈ events, 0 < event.latestRtt
  fits : ∀ event ∈ events, event.eventTime < 2 ^ 64
  inOrder : events.Pairwise fun before after => before.eventTime ≤ after.eventTime

theorem Timely.updates {events : List CopaEvent} (timely : Timely events)
    (toUpdate : CopaEvent → FilterUpdate Nat)
    (sample : ∀ event, (toUpdate event).sample = event.latestRtt)
    (time : ∀ event, (toUpdate event).time = event.eventTime) :
    WindowedFilter.Timely 0 0 (events.map toUpdate) where
  measured := by
    simp only [List.mem_map, forall_exists_index, and_imp, forall_apply_eq_imp_iff₂, sample]
    exact fun event present => (timely.positive event present).ne'
  started := fun _ _ => Nat.zero_le _
  fits := by
    simp only [List.mem_map, forall_exists_index, and_imp, forall_apply_eq_imp_iff₂, time]
    exact timely.fits
  inOrder := by
    rw [List.pairwise_map]
    exact timely.inOrder.imp fun {before after} inOrder => by rwa [time, time]

theorem Timely.estimates {events : List CopaEvent} {event : CopaEvent}
    (timely : Timely (events ++ [event])) (toUpdate : CopaEvent → FilterUpdate Nat)
    (sample : ∀ event, (toUpdate event).sample = event.latestRtt)
    (time : ∀ event, (toUpdate event).time = event.eventTime) (windowLength : Nat) :
    Estimates (events.map toUpdate) (toUpdate event)
      ((WindowedFilter.create windowLength 0 0).afterUpdates
        ((events ++ [event]).map toUpdate)).getBest := by
  have updates := timely.updates toUpdate sample time
  rw [List.map_append, List.map_singleton] at updates ⊢
  exact getBest_estimates windowLength _ _ updates

end CopaEvent

namespace CopaSender

open CopaEvent (minRttUpdate standingRttUpdate)

variable {sender next : CopaSender} {event : CopaEvent} {events : List CopaEvent}
  {actions : List CopaAction} {initialWindow maxWindow : Nat}

/-! ## The rates as doubles -/

open BinaryRounding (Scaled)

/-- `currentRate`, computed with doubles. -/
def doubleCurrentRate (congestionWindow rttStanding : Nat) : Nat :=
  (Scaled.div 53 (.mul 53 (.ofNat 53 congestionWindow) (.ofNat 53 1000000))
    (.ofNat 53 rttStanding)).truncate

/-- `targetRate`, computed with doubles; `latencyFactor_` is one half. -/
def doubleTargetRate (delayInMicroSec : Nat) : Nat :=
  (Scaled.div 53 (.mul 53 (.ofNat 53 kDefaultTCPMSS) (.ofNat 53 1000000))
    (.mul 53 ⟨1, 1⟩ (.ofNat 53 delayInMicroSec))).truncate

theorem truncate_div_ofNat {numerator denominator halvings : Nat}
    (few : numerator * 2 ^ halvings < 2 ^ 53) (positive : 0 < denominator) :
    (Scaled.div 53 ⟨numerator, 0⟩ ⟨denominator, halvings⟩).truncate =
      numerator * 2 ^ halvings / denominator := by
  rw [Scaled.truncate_div (by decide) few positive, Nat.pow_zero, Nat.mul_one]

theorem doubleCurrentRate_eq {congestionWindow rttStanding : Nat}
    (window : congestionWindow * 1000000 < 2 ^ 53) (positive : 0 < rttStanding)
    (short : rttStanding < 2 ^ 53) :
    doubleCurrentRate congestionWindow rttStanding = currentRate congestionWindow rttStanding := by
  have plain : congestionWindow < 2 ^ 53 := by omega
  unfold doubleCurrentRate currentRate Scaled.mul Scaled.ofNat
  rw [BinaryRounding.round_of_lt (by decide) plain,
    @BinaryRounding.round_of_lt 53 1000000 (by decide) (by decide),
    BinaryRounding.round_of_lt (by decide) window, BinaryRounding.round_of_lt (by decide) short]
  refine (@truncate_div_ofNat _ _ 0 ?_ positive).trans ?_
  · rwa [Nat.pow_zero, Nat.mul_one]
  · rw [Nat.pow_zero, Nat.mul_one]

theorem doubleTargetRate_eq {delayInMicroSec : Nat} (positive : 0 < delayInMicroSec)
    (short : delayInMicroSec < 2 ^ 53) :
    doubleTargetRate delayInMicroSec = targetRate delayInMicroSec := by
  have segment : kDefaultTCPMSS * 1000000 < 2 ^ 53 := by decide
  unfold doubleTargetRate targetRate Scaled.mul Scaled.ofNat
  rw [@BinaryRounding.round_of_lt 53 kDefaultTCPMSS (by decide) (by decide),
    @BinaryRounding.round_of_lt 53 1000000 (by decide) (by decide),
    BinaryRounding.round_of_lt (by decide) segment, BinaryRounding.round_of_lt (by decide) short,
    Nat.one_mul, BinaryRounding.round_of_lt (by decide) short, Nat.mul_comm 2]
  exact @truncate_div_ofNat _ _ 1 (by decide) positive

/-! ## The decisions of a run -/

/-- The filters hold what the events make of them. -/
structure Follows (sender : CopaSender) (events : List CopaEvent) : Prop where
  minRtt : sender.minRttFilter =
    (WindowedFilter.create minRttWindowLength 0 0).afterUpdates (events.map minRttUpdate)
  minRttWindow : sender.minRttFilter.windowLength = minRttWindowLength
  standingRtt : sender.standingRttFilter =
    (WindowedFilter.create 100000 0 0).afterUpdates (events.map standingRttUpdate)

theorem follows_create (initialWindow maxWindow : Nat) :
    (create initialWindow maxWindow).Follows [] :=
  ⟨rfl, rfl, rfl⟩

theorem Follows.observed (follows : sender.Follows events) (event : CopaEvent) :
    (sender.observed event).Follows (events ++ [event]) := by
  obtain ⟨cutback, shape⟩ := sender.foldl_onPacketLost_eq event.lostPackets
  have sameWindow : { sender.minRttFilter with windowLength := minRttWindowLength } =
      sender.minRttFilter := by
    rw [← follows.minRttWindow]
  unfold CopaSender.observed
  rw [shape]
  refine ⟨?_, (update_constants _ _ _ _).1.trans follows.minRttWindow, ?_⟩
  · rw [List.map_append, List.map_singleton, afterUpdates_concat, ← follows.minRtt]
    unfold WindowedFilter.apply
    rw [show (minRttUpdate event).windowLength = minRttWindowLength from rfl, sameWindow]
    rfl
  · rw [List.map_append, List.map_singleton, afterUpdates_concat, ← follows.standingRtt]
    rfl

theorem Follows.eventStep (follows : sender.Follows events)
    (step : EventStep sender event next) : next.Follows (events ++ [event]) := by
  have observed := follows.observed event
  cases step with
  | armed => exact { observed with }
  | doubled => exact { observed with }
  | waiting => exact observed
  | increased => exact { observed with }
  | decreased => exact { observed with }

theorem follows_of_run (run : Run Step (create initialWindow maxWindow) actions sender) :
    sender.Follows (actions.filterMap CopaAction.event) := by
  induction run with
  | start => exact follows_create initialWindow maxWindow
  | @snoc _ action _ _ _ step inductionHypothesis =>
      rw [List.filterMap_append]
      cases action with
      | packetSent packetNumber =>
          rw [onPacketSent_eq_ok step.2,
            show [CopaAction.packetSent packetNumber].filterMap CopaAction.event = [] from rfl,
            List.append_nil]
          exact { inductionHypothesis with }
      | congestionEvent event =>
          exact inductionHypothesis.eventStep (.of_onCongestionEvent step.2)
      | setInitialCongestionWindowInPackets congestionWindow =>
          rw [setInitialCongestionWindowInPackets_eq_ok step.2,
            show [CopaAction.setInitialCongestionWindowInPackets congestionWindow].filterMap
              CopaAction.event = [] from rfl, List.append_nil]
          exact { inductionHypothesis with }

theorem minRtt_of_least {rttMin : Nat}
    (estimates : Estimates (events.map minRttUpdate) (minRttUpdate event) rttMin)
    (least : ∀ before ∈ events, event.eventTime ≤ before.eventTime + minRttWindowLength →
      event.latestRtt ≤ before.latestRtt) : rttMin = event.latestRtt := by
  refine estimates.exactly (events.map minRttUpdate) (minRttUpdate event) [] rfl ?_
    fun _ impossible => nomatch impossible
  intro before present recent
  obtain ⟨source, inEvents, rfl⟩ := List.mem_map.mp present
  exact least source inEvents recent

theorem FiltersInOrder.decision_eq (inOrder : sender.FiltersInOrder)
    (positive : 0 < event.latestRtt) :
    sender.decision event =
      if event.latestRtt = (sender.observed event).minRttFilter.getBest then
        .ok true
      else if 2 ^ 63 ≤ currentRate sender.congestionWindow
          (sender.observed event).standingRttFilter.getBest then
        .error .conversionOverflow
      else
        .ok (decide (currentRate sender.congestionWindow
          (sender.observed event).standingRttFilter.getBest ≤
            targetRate (event.latestRtt - (sender.observed event).minRttFilter.getBest))) := by
  have delay := inOrder.delay event
  unfold decision increaseCwnd
  dsimp only
  rw [if_neg (not_lt.mpr delay), if_neg (inOrder.standing_pos positive).ne',
    congestionWindow_observed]
  exact if_congr (by omega) rfl rfl

/-- Where the operands need no rounding, the decision is the one that is made with
doubles. -/
theorem FiltersInOrder.decision_eq_double (inOrder : sender.FiltersInOrder)
    (positive : 0 < event.latestRtt) (window : sender.congestionWindow * 1000000 < 2 ^ 53)
    (short : event.latestRtt < 2 ^ 53)
    (standingShort : (sender.observed event).standingRttFilter.getBest < 2 ^ 53) :
    sender.decision event = .ok (decide
      (event.latestRtt = (sender.observed event).minRttFilter.getBest ∨
        doubleCurrentRate sender.congestionWindow
            (sender.observed event).standingRttFilter.getBest ≤
          doubleTargetRate
            (event.latestRtt - (sender.observed event).minRttFilter.getBest))) := by
  have delay := inOrder.delay event
  have standing := inOrder.standing_pos positive
  rw [inOrder.decision_eq positive]
  generalize (sender.observed event).minRttFilter.getBest = rttMin at *
  generalize (sender.observed event).standingRttFilter.getBest = rttStanding at *
  have small : currentRate sender.congestionWindow rttStanding < 2 ^ 63 :=
    (Nat.div_le_self _ _).trans_lt (window.trans (by decide))
  rw [doubleCurrentRate_eq window standing standingShort]
  split
  next same => simp [same]
  next different =>
    have queued : 0 < event.latestRtt - rttMin := by omega
    rw [if_neg (not_le.mpr small), doubleTargetRate_eq queued (by omega)]
    simp [different]

/-- In every run with positive round-trip times and a clock that does not go
back, an event decides by the round-trip times of the run: the queueing delay is
counted from an estimate of the minimum of the last ten seconds, the rate from
one of the minimum over half a smoothed round-trip time.  The decision is to
increase whenever the latest sample is the least of the last ten seconds. -/
theorem decision_of_run (run : Run Step (create initialWindow maxWindow) actions sender)
    (timely : CopaEvent.Timely (actions.filterMap CopaAction.event ++ [event])) :
    let events := actions.filterMap CopaAction.event
    (∃ rttMin rttStanding,
      Estimates (events.map minRttUpdate) (minRttUpdate event) rttMin ∧
      Estimates (events.map standingRttUpdate) (standingRttUpdate event) rttStanding ∧
      rttMin ≤ event.latestRtt ∧ 0 < rttStanding ∧
      (sender.congestionWindow * 1000000 < 2 ^ 53 → event.latestRtt < 2 ^ 53 →
        sender.decision event = .ok (decide (event.latestRtt = rttMin ∨
          doubleCurrentRate sender.congestionWindow rttStanding ≤
            doubleTargetRate (event.latestRtt - rttMin))))) ∧
    ((∀ before ∈ events, event.eventTime ≤ before.eventTime + minRttWindowLength →
        event.latestRtt ≤ before.latestRtt) →
      sender.decision event = .ok true) := by
  intro events
  have inOrder : sender.FiltersInOrder :=
    run.invariant FiltersInOrder (filtersInOrder_create initialWindow maxWindow)
      fun _ _ _ holds step => holds.perform step.2
  have positive : 0 < event.latestRtt := timely.positive event (by simp)
  have follows := (follows_of_run run).observed event
  have minRtt : Estimates (events.map minRttUpdate) (minRttUpdate event)
      (sender.observed event).minRttFilter.getBest := by
    rw [follows.minRtt]
    exact timely.estimates minRttUpdate (fun _ => rfl) (fun _ => rfl) _
  have standingRtt : Estimates (events.map standingRttUpdate) (standingRttUpdate event)
      (sender.observed event).standingRttFilter.getBest := by
    rw [follows.standingRtt]
    exact timely.estimates standingRttUpdate (fun _ => rfl) (fun _ => rfl) _
  refine ⟨⟨_, _, minRtt, standingRtt, inOrder.delay event, inOrder.standing_pos positive,
    fun window short => ?_⟩, fun least => ?_⟩
  · exact inOrder.decision_eq_double positive window short
      (standingRtt.le_last.trans_lt short)
  · rw [inOrder.decision_eq positive, if_pos (minRtt_of_least minRtt least).symm]

/-- A delayed acknowledgement after a prompt one. -/
theorem decision_of_run_delayed :
    ∃ sender : CopaSender,
      Run Step (create 10 100) [.packetSent 1, .congestionEvent ⟨1, 100, 1000, [1], []⟩] sender ∧
      ∃ rttMin, Estimates [⟨10000000, 100, 1⟩] ⟨10000000, 300, 501⟩ rttMin ∧ rttMin ≤ 300 ∧
        sender.decision ⟨501, 300, 1000, [2], []⟩ = .ok false := by
  have run : Run Step (create 10 100) _ _ := Run.of_execute
    [.packetSent 1, .congestionEvent ⟨1, 100, 1000, [1], []⟩] rfl
  obtain ⟨rttMin, _, minRtt, _, delay, _⟩ :=
    (@decision_of_run _ ⟨501, 300, 1000, [2], []⟩ _ _ _ run
      ⟨by decide, by decide, by decide⟩).1
  exact ⟨_, run, rttMin, minRtt, delay, by decide +kernel⟩

end CopaSender

end Ns3Quic.CongestionControl
