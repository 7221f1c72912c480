import Ns3Quic.CongestionControl.CopaSender

/-!
# Checks of the Copa sender that never fail

Both filters keep their estimates sorted, whatever the samples, the times and
the window lengths.  That is enough for the two checks before the decision: an
update leaves a best estimate that is at most the new sample, and one that is
positive if the samples are.

The decrease uses the distance to the minimum window as its clamp, in unsigned
arithmetic.  It re-establishes the bound that it needs, and nothing else makes
the window smaller.
-/

namespace Ns3Quic.CongestionControl

open TransitionSystem LoopRules WindowedFilter

namespace CopaSender

variable {sender next : CopaSender} {event : CopaEvent} {action : CopaAction}

/-! ## The filters -/

structure FiltersInOrder (sender : CopaSender) : Prop where
  minRtt : sender.minRttFilter.Sorted
  standingRtt : sender.standingRttFilter.Sorted
  zeroValue : sender.standingRttFilter.zeroValue = 0

theorem filtersInOrder_create (initialWindow maxWindow : Nat) :
    (create initialWindow maxWindow).FiltersInOrder :=
  ⟨⟨le_refl _, le_refl _⟩, ⟨le_refl _, le_refl _⟩, rfl⟩

theorem FiltersInOrder.losses (inOrder : sender.FiltersInOrder) (lostPackets : List Nat) :
    (lostPackets.foldl onPacketLost sender).FiltersInOrder := by
  obtain ⟨cutback, shape⟩ := sender.foldl_onPacketLost_eq lostPackets
  rw [shape]
  exact { inOrder with }

theorem FiltersInOrder.observe (inOrder : sender.FiltersInOrder) (event : CopaEvent) :
    (sender.observe event).FiltersInOrder where
  minRtt := (sorted_update inOrder.minRtt).1
  standingRtt := (sorted_update (inOrder.standingRtt.resize (event.smoothedRtt / 2))).1
  zeroValue := (update_constants _ _ _ _).2.trans inOrder.zeroValue

theorem FiltersInOrder.observed (inOrder : sender.FiltersInOrder) (event : CopaEvent) :
    (sender.observed event).FiltersInOrder :=
  (inOrder.losses event.lostPackets).observe event

theorem FiltersInOrder.delay (inOrder : sender.FiltersInOrder) (event : CopaEvent) :
    (sender.observed event).minRttFilter.getBest ≤ event.latestRtt :=
  (sorted_update (inOrder.losses event.lostPackets).minRtt).2

theorem FiltersInOrder.standing_pos (inOrder : sender.FiltersInOrder)
    (positive : 0 < event.latestRtt) :
    0 < (sender.observed event).standingRttFilter.getBest := by
  obtain ⟨_, standing, zeroValue⟩ := inOrder.losses event.lostPackets
  have measured : (sender.observed event).standingRttFilter.best.sample ≠
      (event.lostPackets.foldl onPacketLost sender).standingRttFilter.zeroValue := by
    apply update_measured (standing.resize (event.smoothedRtt / 2))
    · dsimp only
      rw [zeroValue]
      exact Nat.zero_le
    · dsimp only
      rw [zeroValue]
      exact positive.ne'
  rw [zeroValue] at measured
  exact Nat.pos_of_ne_zero measured

theorem FiltersInOrder.eventStep (inOrder : sender.FiltersInOrder)
    (step : EventStep sender event next) : next.FiltersInOrder := by
  have observed := inOrder.observed event
  cases step with
  | armed => exact { observed with }
  | doubled => exact { observed with }
  | waiting => exact observed
  | increased => exact { observed with }
  | decreased => exact { observed with }

theorem FiltersInOrder.perform (inOrder : sender.FiltersInOrder)
    (result : sender.perform action = .ok next) : next.FiltersInOrder := by
  cases action with
  | packetSent packetNumber =>
      rw [onPacketSent_eq_ok result]
      exact { inOrder with }
  | congestionEvent event => exact inOrder.eventStep (.of_onCongestionEvent result)
  | setInitialCongestionWindowInPackets congestionWindow =>
      rw [setInitialCongestionWindowInPackets_eq_ok result]
      exact { inOrder with }

def Measured : CopaAction → Prop
  | .congestionEvent event => 0 < event.latestRtt
  | .packetSent _ | .setInitialCongestionWindowInPackets _ => True

instance (action : CopaAction) : Decidable (Measured action) :=
  match action with
  | .congestionEvent event => inferInstanceAs (Decidable (0 < event.latestRtt))
  | .packetSent _ | .setInitialCongestionWindowInPackets _ => inferInstanceAs (Decidable True)

def MeasuredStep : CopaSender → CopaAction → CopaSender → Prop :=
  Guarded (fun _ => Measured) perform

/-- In every run with positive round-trip times, at whatever times its events
come, both checks before the decision succeed: the best estimate of the minimum
is at most the latest sample, and that of the standing round-trip time is
positive. -/
theorem filter_checks_succeed {initialWindow maxWindow : Nat} {actions : List CopaAction}
    (run : Run MeasuredStep (create initialWindow maxWindow) actions sender)
    (event : CopaEvent) (positive : 0 < event.latestRtt) :
    (sender.observed event).minRttFilter.getBest ≤ event.latestRtt ∧
      0 < (sender.observed event).standingRttFilter.getBest ∧
      sender.perform (.congestionEvent event) ≠ .error .delayNegative ∧
      sender.perform (.congestionEvent event) ≠ .error .rttStandingZero := by
  have inOrder : sender.FiltersInOrder :=
    run.invariant FiltersInOrder (filtersInOrder_create initialWindow maxWindow)
      fun _ _ _ holds step => holds.perform step.2
  have delay := inOrder.delay event
  have standing := inOrder.standing_pos positive
  refine ⟨delay, standing, ?_, ?_⟩
  · intro result
    cases EventFault.of_onCongestionEvent result with
    | delay negative => exact absurd delay (not_le.mpr negative)
  · intro result
    cases EventFault.of_onCongestionEvent result with
    | standing zero => exact absurd zero standing.ne'

/-- The window of the standing filter shrinks to nothing while the round-trip
time grows. -/
theorem filter_checks_succeed_shrinking :
    ∃ sender : CopaSender,
      Run MeasuredStep (create 10 100)
        [.congestionEvent ⟨1, 100, 1000, [1], []⟩, .congestionEvent ⟨2, 200, 0, [2], []⟩]
        sender ∧
      0 < (sender.observed ⟨3, 300, 0, [3], []⟩).standingRttFilter.getBest := by
  have run : Run MeasuredStep (create 10 100) _ _ := Run.of_execute
    [.congestionEvent ⟨1, 100, 1000, [1], []⟩, .congestionEvent ⟨2, 200, 0, [2], []⟩] rfl
  exact ⟨_, run, (filter_checks_succeed run ⟨3, 300, 0, [3], []⟩ (by decide)).2.1⟩

/-! ## The minimum window -/

/-- The window is at least the minimum, and a 64-bit number. -/
structure AboveMin (sender : CopaSender) : Prop where
  floor : minCongestionWindow ≤ sender.congestionWindow
  fits : sender.congestionWindow < 2 ^ 64

theorem AboveMin.distance (above : sender.AboveMin) :
    subU64 sender.congestionWindow minCongestionWindow =
      sender.congestionWindow - minCongestionWindow :=
  subU64_of_le above.floor above.fits

theorem AboveMin.eventStep (above : sender.AboveMin) (step : EventStep sender event next) :
    next.AboveMin := by
  have distance := above.distance
  obtain ⟨floor, fits⟩ := above
  have unchanged : (sender.observed event).AboveMin := by
    constructor
    · rw [congestionWindow_observed]
      exact floor
    · rw [congestionWindow_observed]
      exact fits
  cases step with
  | armed => exact { unchanged with }
  | doubled decided slow due noOverflow =>
      constructor
      · dsimp only
        omega
      · dsimp only
        omega
  | waiting => exact unchanged
  | increased change decided avoidance computed noOverflow =>
      have small := (windowChange_eq_ok.mp computed).2.1
      constructor
      · dsimp only
        omega
      · dsimp only
        omega
  | decreased change decided computed noUnderflow =>
      -- the reduction is at most the distance to the minimum
      rw [distance]
      constructor
      · dsimp only
        omega
      · dsimp only
        omega

/-- A window of the given number of packets is at least the minimum, and its
bytes can be counted. -/
def Settable (packets : Nat) : Prop :=
  4 ≤ packets ∧ packets * kDefaultTCPMSS < 2 ^ 64

instance (packets : Nat) : Decidable (Settable packets) :=
  inferInstanceAs (Decidable (_ ∧ _))

def SetsWindow : CopaAction → Prop
  | .setInitialCongestionWindowInPackets congestionWindow => Settable congestionWindow
  | .congestionEvent _ | .packetSent _ => True

instance (action : CopaAction) : Decidable (SetsWindow action) :=
  match action with
  | .setInitialCongestionWindowInPackets congestionWindow =>
      inferInstanceAs (Decidable (Settable congestionWindow))
  | .congestionEvent _ | .packetSent _ => inferInstanceAs (Decidable True)

def SettableStep : CopaSender → CopaAction → CopaSender → Prop :=
  Guarded (fun _ => SetsWindow) perform

theorem aboveMin_of_settable {packets : Nat} (settable : Settable packets)
    (window : sender.congestionWindow = mulU64 packets kDefaultTCPMSS) : sender.AboveMin := by
  rw [mulU64_of_lt settable.2] at window
  constructor
  · rw [window]
    exact Nat.mul_le_mul_right _ settable.1
  · rw [window]
    exact settable.2

theorem AboveMin.step (above : sender.AboveMin) (step : SettableStep sender action next) :
    next.AboveMin := by
  obtain ⟨settable, result⟩ := step
  cases action with
  | packetSent packetNumber =>
      rw [onPacketSent_eq_ok result]
      exact { above with }
  | congestionEvent event => exact above.eventStep (.of_onCongestionEvent result)
  | setInitialCongestionWindowInPackets congestionWindow =>
      rw [setInitialCongestionWindowInPackets_eq_ok result]
      split
      next => exact aboveMin_of_settable settable rfl
      next => exact above

theorem AboveMin.ne_underflow (above : sender.AboveMin) (action : CopaAction) :
    sender.perform action ≠ .error .underflowBytesInFlight := by
  intro result
  cases action with
  | packetSent packetNumber =>
      unfold CopaSender.perform onPacketSent at result
      dsimp only at result
      split at result <;> cases result
  | congestionEvent event =>
      cases EventFault.of_onCongestionEvent result with
      | reduction change decided computed underflow =>
          rw [above.distance] at underflow
          omega
  | setInitialCongestionWindowInPackets congestionWindow => cases result

/-- In every run whose initial windows are at least four packets, and numbers
of bytes that can be counted, the window is at least the minimum, the distance
to it does not wrap, and no decrease underflows. -/
theorem window_never_below_min {initialWindow maxWindow : Nat} {actions : List CopaAction}
    (settable : Settable initialWindow)
    (run : Run SettableStep (create initialWindow maxWindow) actions sender) :
    minCongestionWindow ≤ sender.congestionWindow ∧
      subU64 sender.congestionWindow minCongestionWindow =
        sender.congestionWindow - minCongestionWindow ∧
      ∀ action, sender.perform action ≠ .error .underflowBytesInFlight := by
  have above : sender.AboveMin :=
    run.invariant AboveMin (aboveMin_of_settable settable rfl)
      fun _ _ _ holds step => holds.step step
  exact ⟨above.floor, above.distance, above.ne_underflow⟩

def promptAck : CopaAction := .congestionEvent ⟨1, 100, 4000, [1], []⟩

def delayedAck : CopaAction := .congestionEvent ⟨1001, 1000000, 4000, [2], []⟩

/-- A decrease from the smallest window leaves it as it is. -/
theorem window_never_below_min_smallest :
    ∃ sender : CopaSender,
      Run SettableStep (create 4 100) [promptAck, delayedAck] sender ∧
      sender.isSlowStart = false ∧ minCongestionWindow ≤ sender.congestionWindow := by
  have run : Run SettableStep (create 4 100) _ _ := Run.of_execute [promptAck, delayedAck] rfl
  exact ⟨_, run, rfl, (window_never_below_min (by decide) run).1⟩

/-- A number of packets whose bytes exceed 64 bits by one segment: the window is
that segment, the distance to the minimum wraps, and the decrease throws. -/
theorem huge_window_underflows :
    4 ≤ 2 ^ 62 + 1 ∧
    (create (2 ^ 62 + 1) (2 ^ 62 + 1)).congestionWindow < minCongestionWindow ∧
    ∃ sender : CopaSender,
      Run Step (create (2 ^ 62 + 1) (2 ^ 62 + 1)) [promptAck] sender ∧
      sender.congestionWindow < subU64 sender.congestionWindow minCongestionWindow ∧
      sender.perform delayedAck = .error .underflowBytesInFlight :=
  ⟨by decide, by decide, _, Run.of_execute [promptAck] rfl, by decide, by decide +kernel⟩

end CopaSender

end Ns3Quic.CongestionControl
