import Ns3Quic.CongestionControl.VegasRounds

/-!
# The two minima of the Vegas sender

At the end of a round the sender compares `min_rtt_`, the smallest sample of
the round, with the best estimate of `baseRTTFilter_`, and checks that the
former is not below the latter.  The filter forgets: when its best estimate is
more than ten seconds old, larger samples take its place, while `min_rtt_`
keeps the small sample until the round ends.  So the check holds as long as
the filter has no reason to forget in the middle of a round.
-/

namespace Ns3Quic.CongestionControl

open TransitionSystem LoopRules WindowedFilter

namespace VegasSender

variable {sender next : VegasSender} {now : Nat}

/-- The filter is in order at time `now`, and the best estimate is at most the
minimum of the round that is being measured. -/
structure RttsInOrder (sender : VegasSender) (now : Nat) : Prop where
  windowLength : sender.baseRttFilter.windowLength = kMinRTTWindowLength
  zeroValue : sender.baseRttFilter.zeroValue = 0
  sorted : sender.baseRttFilter.Sorted
  aged : sender.baseRttFilter.Aged now
  finite : sender.baseRttFilter.Forall fun estimate => estimate.sample ≤ infiniteUs
  unmeasured : sender.baseRttFilter.best.sample = 0 → sender.minRtt = infiniteUs
  below : sender.vegasMode = true → sender.baseRttFilter.getBest ≤ sender.minRtt

/-- The filter keeps its best estimate, or the new sample is a new minimum of
the round. -/
def Remembers (sender : VegasSender) (latestRtt eventTime : Nat) : Prop :=
  latestRtt + 1 ≤ sender.minRtt ∨
    olderThan kMinRTTWindowLength sender.baseRttFilter.best eventTime = false

/-- A sample is never zero, so the filter has measured something after it. -/
theorem baseRttFilter_measured {filter : WindowedFilter Nat} (sorted : filter.Sorted)
    (zeroValue : filter.zeroValue = 0) (latestRtt eventTime : Nat) :
    (filter.update minFilter (latestRtt + 1) eventTime).best.sample ≠ 0 := by
  rw [← zeroValue]
  apply update_measured sorted
  · rw [zeroValue]
    exact Nat.zero_le
  · rw [zeroValue]
    exact Nat.succ_ne_zero latestRtt

theorem RttsInOrder.collectRtt (inOrder : sender.RttsInOrder now) {latestRtt eventTime : Nat}
    (finite : latestRtt < infiniteUs) (later : now ≤ eventTime) (fits : eventTime < 2 ^ 64)
    (remembers : sender.vegasMode = true → sender.Remembers latestRtt eventTime) :
    (sender.collectRtt latestRtt eventTime).RttsInOrder eventTime := by
  obtain ⟨sameLength, sameZero⟩ :=
    update_constants minFilter sender.baseRttFilter (latestRtt + 1) eventTime
  constructor
  case windowLength => exact sameLength.trans inOrder.windowLength
  case zeroValue => exact sameZero.trans inOrder.zeroValue
  case sorted => exact (sorted_update inOrder.sorted).1
  case aged => exact aged_update inOrder.aged later
  case finite => exact forall_update minFilter inOrder.finite finite
  case unmeasured =>
    intro nothing
    exact absurd nothing
      (baseRttFilter_measured inOrder.sorted inOrder.zeroValue latestRtt eventTime)
  case below =>
    intro vegasMode
    have best : (sender.baseRttFilter.update minFilter (latestRtt + 1) eventTime).getBest ≤
        latestRtt + 1 := (sorted_update inOrder.sorted).2
    suffices bound : latestRtt + 1 ≤ sender.minRtt ∨
        (sender.baseRttFilter.update minFilter (latestRtt + 1) eventTime).getBest ≤
          sender.minRtt by
      change (sender.baseRttFilter.update minFilter (latestRtt + 1) eventTime).getBest ≤
        if latestRtt + 1 < sender.minRtt then latestRtt + 1 else sender.minRtt
      split
      next => exact best
      next => omega
    rcases remembers vegasMode with newMinimum | recent
    · exact Or.inl newMinimum
    · by_cases newMinimum : latestRtt + 1 ≤ sender.minRtt
      · exact Or.inl newMinimum
      · refine Or.inr ?_
        have measured : sender.baseRttFilter.best.sample ≠ sender.baseRttFilter.zeroValue := by
          rw [inOrder.zeroValue]
          intro nothing
          rw [inOrder.unmeasured nothing] at newMinimum
          omega
        rw [← inOrder.windowLength] at recent
        rw [getBest_update_of_recent inOrder.aged later fits measured recent]
        have below := inOrder.below vegasMode
        unfold getBest at below
        rw [if_neg (by simp only [minFilter, decide_eq_true_eq]; omega)]
        exact below

theorem RttsInOrder.later (inOrder : sender.RttsInOrder now) {eventTime : Nat}
    (later : now ≤ eventTime) : sender.RttsInOrder eventTime :=
  { inOrder with
    aged := ⟨inOrder.aged.1, inOrder.aged.2.1, inOrder.aged.2.2.trans later⟩ }

theorem RttsInOrder.losses (inOrder : sender.RttsInOrder now) (lostPackets : List Nat) :
    (lostPackets.foldl onPacketLost sender).RttsInOrder now := by
  have losses := afterLosses sender lostPackets
  constructor
  case below => rw [losses.mode, losses.filter, losses.minRtt]; exact inOrder.below
  case unmeasured => rw [losses.filter, losses.minRtt]; exact inOrder.unmeasured
  all_goals rw [losses.filter]
  case windowLength => exact inOrder.windowLength
  case zeroValue => exact inOrder.zeroValue
  case sorted => exact inOrder.sorted
  case aged => exact inOrder.aged
  case finite => exact inOrder.finite

theorem RttsInOrder.ackStep (inOrder : sender.RttsInOrder now) {packet : Nat}
    (step : AckStep sender packet next) : next.RttsInOrder now := by
  cases step with
  | reno => exact { inOrder with }
  | within => exact { inOrder with }
  | roundEnds =>
      exact { inOrder with
        unmeasured := fun _ => rfl
        below := fun _ => inOrder.finite.1 }

theorem RttsInOrder.switchMode (inOrder : sender.RttsInOrder now) (before : Bool) :
    (sender.switchMode before).RttsInOrder now := by
  unfold VegasSender.switchMode
  split
  next =>
    split
    next => exact { inOrder with below := fun vegas => absurd vegas (by simp) }
    next =>
      exact { inOrder with
        unmeasured := fun _ => rfl
        below := fun _ => inOrder.finite.1 }
  next => exact inOrder

theorem onPacketAcked_minRtt {packet : Nat}
    (result : sender.onPacketAcked packet = .error .minRttBelowBaseRtt) :
    sender.vegasMode = true ∧ sender.minRtt < sender.baseRttFilter.getBest := by
  cases ackFault_of_error result with
  | begSendNext impossible => cases impossible
  | rule _ vegasMode _ _ _ failed =>
      rcases VegasWindow.checkedAdjust_eq_error failed with ⟨impossible, _⟩ | ⟨_, tooSmall⟩
      · cases impossible
      · exact ⟨vegasMode, tooSmall⟩

theorem RttsInOrder.measure (inOrder : sender.RttsInOrder now)
    {latestRtt eventTime : Nat} (ackedPackets lostPackets : List Nat)
    (finite : latestRtt < infiniteUs) (later : now ≤ eventTime) (fits : eventTime < 2 ^ 64)
    (remembers : ackedPackets ≠ [] → sender.vegasMode = true →
      sender.Remembers latestRtt eventTime) :
    (lostPackets.foldl onPacketLost (if ackedPackets.isEmpty then sender
      else sender.collectRtt latestRtt eventTime)).RttsInOrder eventTime := by
  apply RttsInOrder.losses
  split
  next => exact inOrder.later later
  next nonempty =>
    exact inOrder.collectRtt finite later fits (remembers (by simpa using nonempty))

theorem RttsInOrder.onCongestionEvent (inOrder : sender.RttsInOrder now)
    {latestRtt eventTime : Nat} {ackedPackets lostPackets : List Nat}
    (finite : latestRtt < infiniteUs) (later : now ≤ eventTime) (fits : eventTime < 2 ^ 64)
    (remembers : ackedPackets ≠ [] → sender.vegasMode = true →
      sender.Remembers latestRtt eventTime)
    (result : sender.onCongestionEvent latestRtt eventTime ackedPackets lostPackets =
      .ok next) : next.RttsInOrder eventTime := by
  obtain ⟨collected, after, rfl, loop, rfl⟩ := onCongestionEvent_eq_ok result
  apply RttsInOrder.switchMode
  exact foldlM_invariant (fun _ state => state.RttsInOrder eventTime) ackedPackets
    (fun _ _ _ _ _ holds step => holds.ackStep (ackStep_of_ok step)) 0
    (inOrder.measure ackedPackets lostPackets finite later fits remembers) loop

theorem RttsInOrder.minRtt_checked (inOrder : sender.RttsInOrder now)
    {latestRtt eventTime : Nat} {ackedPackets lostPackets : List Nat}
    (finite : latestRtt < infiniteUs) (later : now ≤ eventTime) (fits : eventTime < 2 ^ 64)
    (remembers : ackedPackets ≠ [] → sender.vegasMode = true →
      sender.Remembers latestRtt eventTime) :
    sender.onCongestionEvent latestRtt eventTime ackedPackets lostPackets ≠
      .error .minRttBelowBaseRtt := by
  intro result
  rcases bind_eq_error.mp result with failed | ⟨_, _, impossible⟩
  · obtain ⟨state, holds, packet, _, checked⟩ :=
      foldlM_fault (fun state => state.RttsInOrder eventTime) ackedPackets
        (fun _ _ _ _ holds step => holds.ackStep (ackStep_of_ok step))
        (inOrder.measure ackedPackets lostPackets finite later fits remembers) failed
    obtain ⟨vegasMode, tooSmall⟩ := onPacketAcked_minRtt checked
    exact absurd (holds.below vegasMode) (by omega)
  · cases impossible

end VegasSender

namespace VegasConnection

open VegasSender

variable {connection next : VegasConnection}

def Timely (connection : VegasConnection) : VegasAction → Prop
  | .congestionEvent _ eventTime _ _ => connection.now ≤ eventTime ∧ eventTime < 2 ^ 63
  | _ => True

/-- An acknowledgement in Vegas mode that brings no new minimum of the round
finds a best estimate that is at most ten seconds old. -/
def Remembers (connection : VegasConnection) : VegasAction → Prop
  | .congestionEvent latestRtt eventTime ackedPackets _ =>
      ackedPackets ≠ [] → connection.sender.vegasMode = true →
        connection.sender.Remembers latestRtt eventTime
  | _ => True

def TimelyStep : VegasConnection → VegasAction → VegasConnection → Prop :=
  Guarded (fun connection action => connection.Enabled action ∧ connection.Timely action)
    perform

def RememberingStep : VegasConnection → VegasAction → VegasConnection → Prop :=
  Guarded (fun connection action =>
    connection.Enabled action ∧ connection.Timely action ∧ connection.Remembers action)
    perform

instance (connection : VegasConnection) (action : VegasAction) :
    Decidable (connection.Timely action) :=
  match action with
  | .congestionEvent _ _ _ _ => inferInstanceAs (Decidable (_ ∧ _))
  | .packetSent _ | .setInitialCongestionWindowInPackets _ =>
      inferInstanceAs (Decidable True)

instance (connection : VegasConnection) (action : VegasAction) :
    Decidable (connection.Remembers action) :=
  match action with
  | .congestionEvent _ _ _ _ => inferInstanceAs (Decidable (_ ≠ _ → _ = _ → _ ∨ _))
  | .packetSent _ | .setInitialCongestionWindowInPackets _ =>
      inferInstanceAs (Decidable True)

theorem rttsInOrder_step {action : VegasAction}
    (inOrder : connection.sender.RttsInOrder connection.now)
    (step : RememberingStep connection action next) :
    next.sender.RttsInOrder next.now := by
  obtain ⟨⟨enabled, timely, remembers⟩, result⟩ := step
  cases action with
  | packetSent packet =>
      rw [packetSent_eq_ok result]
      exact { inOrder with }
  | congestionEvent latestRtt eventTime ackedPackets lostPackets =>
      obtain ⟨performed, _, _, rfl⟩ := congestionEvent_eq_ok result
      have fits : next.now < 2 ^ 64 := lt_trans timely.2 (by decide)
      exact inOrder.onCongestionEvent enabled.1 timely.1 fits remembers performed
  | setInitialCongestionWindowInPackets congestionWindow =>
      rw [setInitialCongestionWindowInPackets_eq_ok result]
      exact { inOrder with }

theorem rttsInOrder_create (initialWindow maxWindow : Nat) :
    (create initialWindow maxWindow).sender.RttsInOrder 0 where
  windowLength := rfl
  zeroValue := rfl
  sorted := ⟨le_refl _, le_refl _⟩
  aged := ⟨le_refl _, le_refl _, le_refl _⟩
  finite := ⟨Nat.zero_le _, Nat.zero_le _, Nat.zero_le _⟩
  unmeasured := fun _ => rfl
  below := fun _ => Nat.zero_le _

/-- In every run whose events all find the base RTT remembered, the best
estimate is at most the minimum of the current round while the sender is in
Vegas mode, and the check at the end of a round never fails. -/
theorem min_rtt_not_below_base_rtt {initialWindow maxWindow : Nat}
    {actions : List VegasAction}
    (run : Run RememberingStep (create initialWindow maxWindow) actions connection) :
    (connection.sender.vegasMode = true →
      connection.sender.baseRttFilter.getBest ≤ connection.sender.minRtt) ∧
    ∀ action, connection.Enabled action → connection.Timely action →
      connection.Remembers action →
      connection.perform action ≠ .error .minRttBelowBaseRtt := by
  have inOrder : connection.sender.RttsInOrder connection.now :=
    run.invariant (fun state => state.sender.RttsInOrder state.now)
      (rttsInOrder_create initialWindow maxWindow)
      fun _ _ _ holds step => rttsInOrder_step holds step
  refine ⟨inOrder.below, ?_⟩
  intro action enabled timely remembers result
  rcases perform_eq_error result with impossible | ⟨_, _, _, _, rfl, failed⟩
  · cases impossible
  · exact inOrder.minRtt_checked enabled.1 timely.1 (lt_trans timely.2 (by decide))
      remembers failed

/-- A round within the window of the filter. -/
theorem min_rtt_not_below_base_rtt_round :
    ∃ connection : VegasConnection,
      Run RememberingStep (create 10 100)
        [.packetSent 1, .packetSent 2, .packetSent 3, .congestionEvent 10 0 [1] [],
          .congestionEvent 20 1000000 [2] []] connection ∧
      connection.perform (.congestionEvent 30 2000000 [3] []) ≠
        .error .minRttBelowBaseRtt := by
  have run : Run RememberingStep (create 10 100) _ _ :=
    Run.of_execute
      [.packetSent 1, .packetSent 2, .packetSent 3, .congestionEvent 10 0 [1] [],
        .congestionEvent 20 1000000 [2] []] rfl
  refine ⟨_, run, ?_⟩
  exact (min_rtt_not_below_base_rtt run).2 _ (by decide) (by decide) (by decide)

/-- A round that takes more than ten seconds: the filter has forgotten the
sample of 11 microseconds, the round has not. -/
theorem base_rtt_forgotten_within_round :
    ∃ connection : VegasConnection,
      Run TimelyStep (create 10 100)
        [.packetSent 1, .packetSent 2, .packetSent 3, .packetSent 4, .packetSent 5,
          .congestionEvent 10 0 [1] [], .congestionEvent 10 1000000 [2] [],
          .congestionEvent 100 12000000 [3] [], .congestionEvent 100 12000001 [4] []]
        connection ∧
      connection.Enabled (.congestionEvent 100 12000002 [5] []) ∧
      connection.Timely (.congestionEvent 100 12000002 [5] []) ∧
      connection.perform (.congestionEvent 100 12000002 [5] []) =
        .error .minRttBelowBaseRtt := by
  have run : Run TimelyStep (create 10 100) _ _ := Run.of_execute
    [.packetSent 1, .packetSent 2, .packetSent 3, .packetSent 4, .packetSent 5,
      .congestionEvent 10 0 [1] [], .congestionEvent 10 1000000 [2] [],
      .congestionEvent 100 12000000 [3] [], .congestionEvent 100 12000001 [4] []] rfl
  exact ⟨_, run, by decide, by decide, rfl⟩

end VegasConnection

end Ns3Quic.CongestionControl
