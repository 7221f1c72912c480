import Ns3Quic.CongestionControl.TcpCubicSender

/-!
# The range of the window

Whatever happens to a sender, its window stays between the minimum and a
segment above the maximum.
-/

namespace Ns3Quic.CongestionControl

open TransitionSystem LoopRules

/-- A window that single precision represents stays below the estimate. -/
theorem le_estimateTcpWindow {least estimated : Nat} (few : least < 2 ^ 24)
    (below : least ≤ estimated) (acked : Nat) : least ≤ estimateTcpWindow estimated acked := by
  unfold estimateTcpWindow
  apply BinaryRounding.Scaled.le_truncate_add few
  have unscaled : least * 2 ^ 0 ≤ estimated := by rwa [Nat.pow_zero, Nat.mul_one]
  exact BinaryRounding.le_round few unscaled

namespace TcpCubicSenderBytes

/-- The settings keep to the range, and no lost packet is larger than a
segment. -/
def Admissible (maxWindow : Nat) : CubicAction → Prop
  | .congestionEvent event => ∀ packet ∈ event.lostPackets, packet.bytes ≤ kDefaultTCPMSS
  | .setInitialCongestionWindowInPackets congestionWindow =>
      2 ≤ congestionWindow ∧ congestionWindow * kDefaultTCPMSS ≤ maxWindow
  | .packetSent _ _ _ | .retransmissionTimeout _ | .connectionMigration | .setFromConfig _ _
  | .adjustNetworkParameters _ _ => True

instance (maxWindow : Nat) (action : CubicAction) : Decidable (Admissible maxWindow action) :=
  match action with
  | .congestionEvent event =>
      inferInstanceAs (Decidable (∀ packet ∈ event.lostPackets, packet.bytes ≤ kDefaultTCPMSS))
  | .setInitialCongestionWindowInPackets _ => inferInstanceAs (Decidable (_ ∧ _))
  | .packetSent _ _ _ | .retransmissionTimeout _ | .connectionMigration | .setFromConfig _ _
  | .adjustNetworkParameters _ _ => inferInstanceAs (Decidable True)

structure InRange (maxWindow : Nat) (sender : TcpCubicSenderBytes) : Prop where
  max : sender.maxCongestionWindow = maxWindow
  initialMax : sender.initialMaxTcpCongestionWindow = maxWindow
  initialLeast : 2 * kDefaultTCPMSS ≤ sender.initialTcpCongestionWindow
  initialMost : sender.initialTcpCongestionWindow ≤ maxWindow
  leastPositive : kDefaultTCPMSS ≤ sender.minCongestionWindow
  leastSmall : sender.minCongestionWindow ≤ 2 * kDefaultTCPMSS
  above : sender.minCongestionWindow ≤ sender.congestionWindow
  below : sender.congestionWindow < maxWindow + kDefaultTCPMSS
  exitLeast : 2 * kDefaultTCPMSS ≤ sender.minSlowStartExitWindow
  exitMost : sender.minSlowStartExitWindow < maxWindow + kDefaultTCPMSS
  estimate : sender.cubic.epoch ≠ 0 →
    sender.minCongestionWindow ≤ sender.cubic.estimatedTcpCongestionWindow

section Losses

variable {maxWindow priorInFlight : Nat} {sender next : TcpCubicSenderBytes}
  {packet : ReportedPacket}

theorem congestionWindowAfterPacketLoss_eq_ok {cubic after : CubicBytes} {current window : Nat}
    (result : cubic.congestionWindowAfterPacketLoss current = .ok (after, window)) :
    after.epoch = 0 ∧ window = backoff current := by
  unfold CubicBytes.congestionWindowAfterPacketLoss at result
  obtain ⟨_, _, result⟩ := bind_eq_ok.mp result
  obtain ⟨cast, converted, shape⟩ := bind_eq_ok.mp result
  obtain ⟨rfl, rfl⟩ := Prod.mk.inj (Except.ok.inj shape)
  exact ⟨rfl, (check_eq_ok.mp converted).2⟩

theorem reduceWindow_cases (result : sender.reduceWindow = .ok next) :
    (∃ exitWindow, next = { sender with
        minSlowStartExitWindow := exitWindow
        congestionWindow := sender.congestionWindow - kDefaultTCPMSS } ∧
      kDefaultTCPMSS < sender.congestionWindow ∧
      sender.slowStartLargeReduction = true ∧
      (exitWindow = sender.minSlowStartExitWindow ∨
        exitWindow = sender.congestionWindow / 2 ∧
          mulU64 2 sender.initialTcpCongestionWindow ≤ sender.congestionWindow)) ∨
    ∃ cubic, next = { sender with
        cubic := cubic, congestionWindow := backoff sender.congestionWindow } ∧
      (cubic = sender.cubic ∨ cubic.epoch = 0) := by
  unfold reduceWindow at result
  split at result
  next large =>
    simp only [Bool.and_eq_true] at large
    split at result
    next => cases result
    next segment =>
      refine Or.inl ⟨_, (Except.ok.inj result).symm, not_le.mp segment, large.1, ?_⟩
      split
      next doubled => exact Or.inr ⟨rfl, doubled⟩
      next => exact Or.inl rfl
  next =>
    split at result
    next => exact Or.inr ⟨_, (Except.ok.inj result).symm, Or.inl rfl⟩
    next =>
      obtain ⟨⟨cubic, window⟩, computed, shape⟩ := bind_eq_ok.mp result
      obtain ⟨unset, rfl⟩ := congestionWindowAfterPacketLoss_eq_ok computed
      exact Or.inr ⟨cubic, (Except.ok.inj shape).symm, Or.inr unset⟩

theorem onPacketLost_cases (result : onPacketLost priorInFlight sender packet = .ok next) :
    ((∃ cutback, sender.largestSentAtLastCutback = some cutback ∧
        packet.packetNumber ≤ cutback) ∧ next = sender.ignoreLoss packet.bytes) ∨
    (∀ cutback, sender.largestSentAtLastCutback = some cutback →
        cutback < packet.packetNumber) ∧
      ∃ reduced, (sender.noteLossEvent priorInFlight).reduceWindow = .ok reduced ∧
        next = reduced.finishCutback := by
  unfold onPacketLost at result
  split at result
  next old =>
    simp only [Option.any_eq_true, decide_eq_true_eq] at old
    exact Or.inl ⟨old, (Except.ok.inj result).symm⟩
  next new =>
    simp only [Option.any_eq_true, decide_eq_true_eq, not_exists, not_and, not_le] at new
    obtain ⟨reduced, computed, finished⟩ := bind_eq_ok.mp result
    exact Or.inr ⟨new, reduced, computed, (Except.ok.inj finished).symm⟩

theorem InRange.ignoreLoss (range : sender.InRange maxWindow) {lostBytes : Nat}
    (fits : 2 * (maxWindow + kDefaultTCPMSS) ≤ 2 ^ 64) (small : lostBytes ≤ kDefaultTCPMSS) :
    (sender.ignoreLoss lostBytes).InRange maxWindow := by
  unfold TcpCubicSenderBytes.ignoreLoss
  split
  next =>
    dsimp only
    split
    next =>
      have remaining : subU64 sender.congestionWindow lostBytes =
          sender.congestionWindow - lostBytes :=
        subU64_of_le (small.trans (range.leastPositive.trans range.above))
          (range.below.trans_le ((Nat.le_mul_of_pos_left _ (by decide)).trans fits))
      rw [remaining]
      exact { range with
        above := (range.leastSmall.trans range.exitLeast).trans (le_max_right _ _)
        below := max_lt ((Nat.sub_le _ _).trans_lt range.below) range.exitMost }
    next => exact { range with }
  next => exact range

theorem InRange.reduceWindow (range : sender.InRange maxWindow)
    (fits : 2 * (maxWindow + kDefaultTCPMSS) ≤ 2 ^ 64)
    (result : sender.reduceWindow = .ok next) :
    next.finishCutback.InRange maxWindow := by
  have least : sender.minCongestionWindow < maxWindow + kDefaultTCPMSS :=
    range.above.trans_lt range.below
  unfold finishCutback
  rcases reduceWindow_cases result with ⟨exitWindow, rfl, _, _, origin⟩ | ⟨cubic, rfl, origin⟩
  · have exitRange : 2 * kDefaultTCPMSS ≤ exitWindow ∧
        exitWindow < maxWindow + kDefaultTCPMSS := by
      rcases origin with rfl | ⟨rfl, doubled⟩
      · exact ⟨range.exitLeast, range.exitMost⟩
      · have exact : mulU64 2 sender.initialTcpCongestionWindow =
            2 * sender.initialTcpCongestionWindow := by
          refine mulU64_of_lt (lt_of_lt_of_le ?_ fits)
          have := range.initialMost
          unfold kDefaultTCPMSS
          omega
        rw [exact, Nat.mul_comm] at doubled
        exact ⟨range.initialLeast.trans ((Nat.le_div_iff_mul_le (by decide)).mpr doubled),
          (Nat.div_le_self _ _).trans_lt range.below⟩
    exact { range with
      above := le_max_right _ _
      below := max_lt ((Nat.sub_le _ _).trans_lt range.below) least
      exitLeast := exitRange.1
      exitMost := exitRange.2 }
  · have smaller : backoff sender.congestionWindow ≤ sender.congestionWindow := by
      have := (backoff_bounds sender.congestionWindow).1
      omega
    exact { range with
      above := le_max_right _ _
      below := max_lt (smaller.trans_lt range.below) least
      estimate := fun started => by
        rcases origin with rfl | unset
        · exact range.estimate started
        · exact absurd unset started }

theorem InRange.onPacketLost (range : sender.InRange maxWindow)
    (fits : 2 * (maxWindow + kDefaultTCPMSS) ≤ 2 ^ 64) (small : packet.bytes ≤ kDefaultTCPMSS)
    (result : onPacketLost priorInFlight sender packet = .ok next) : next.InRange maxWindow := by
  rcases onPacketLost_cases result with ⟨_, rfl⟩ | ⟨_, reduced, computed, rfl⟩
  · exact range.ignoreLoss fits small
  · have noted : (sender.noteLossEvent priorInFlight).InRange maxWindow := { range with }
    exact noted.reduceWindow fits computed

end Losses

section Acknowledgements

variable {cbrt : Nat → Nat} {maxWindow : Nat} {sender next : TcpCubicSenderBytes}
  {packet : ReportedPacket} {event : CubicEvent}

/-- The window after an acknowledgement is at least the estimate, which stays
above what it was above before; at the beginning of an epoch it is the window. -/
theorem estimate_congestionWindowAfterAck {cubic after : CubicBytes}
    {least ackedBytes current delayMin eventTime window : Nat} (few : least < 2 ^ 24)
    (before : least ≤ if cubic.epoch = 0 then current else cubic.estimatedTcpCongestionWindow)
    (result : cubic.congestionWindowAfterAck cbrt ackedBytes current delayMin eventTime =
      .ok (after, window)) :
    least ≤ after.estimatedTcpCongestionWindow ∧
      after.estimatedTcpCongestionWindow ≤ window := by
  unfold CubicBytes.congestionWindowAfterAck at result
  obtain ⟨target, _, applied⟩ := bind_eq_ok.mp result
  have counted : (if cubic.epoch = 0 then current else cubic.estimatedTcpCongestionWindow) =
      (cubic.countAcked cbrt ackedBytes current eventTime).estimatedTcpCongestionWindow := by
    unfold CubicBytes.countAcked
    split
    next => rfl
    next => rfl
  rw [counted] at before
  unfold CubicBytes.applyTarget at applied
  dsimp only at applied
  split at applied
  next => cases applied
  next =>
    obtain ⟨_, shape⟩ := check_eq_ok.mp applied
    obtain ⟨rfl, rfl⟩ := Prod.mk.inj shape
    exact ⟨le_estimateTcpWindow few before _, le_max_right _ _⟩

theorem maybeIncreaseCwnd_cases {ackedBytes priorInFlight minRtt eventTime : Nat}
    (result : sender.maybeIncreaseCwnd cbrt ackedBytes priorInFlight minRtt eventTime =
      .ok next) :
    next = { sender with cubic := sender.cubic.onApplicationLimited } ∨
    (∃ numAckedPackets, next = { sender with numAckedPackets := numAckedPackets }) ∨
    (sender.congestionWindow < sender.maxCongestionWindow ∧
      ∃ numAckedPackets, next = { sender with
        congestionWindow := addU64 sender.congestionWindow kDefaultTCPMSS
        numAckedPackets := numAckedPackets }) ∨
    ∃ cubic window, sender.cubic.congestionWindowAfterAck cbrt ackedBytes
        sender.congestionWindow minRtt eventTime = .ok (cubic, window) ∧
      next = { sender with
        cubic := cubic, congestionWindow := min sender.maxCongestionWindow window } := by
  unfold maybeIncreaseCwnd at result
  split at result
  next => exact Or.inl (Except.ok.inj result).symm
  next =>
    split at result
    next => exact Or.inr (Or.inl ⟨_, (Except.ok.inj result).symm⟩)
    next room =>
      split at result
      next =>
        exact Or.inr (Or.inr (Or.inl ⟨not_le.mp room, _, (Except.ok.inj result).symm⟩))
      next =>
        split at result
        next =>
          rw [← Except.ok.inj result]
          unfold increaseAsReno
          dsimp only
          split
          next => exact Or.inr (Or.inr (Or.inl ⟨not_le.mp room, _, rfl⟩))
          next => exact Or.inr (Or.inl ⟨_, rfl⟩)
        next =>
          obtain ⟨⟨cubic, window⟩, computed, rest⟩ := bind_eq_ok.mp result
          exact Or.inr (Or.inr (Or.inr ⟨cubic, window, computed, (Except.ok.inj rest).symm⟩))

theorem InRange.maybeIncreaseCwnd (range : sender.InRange maxWindow)
    (fits : 2 * (maxWindow + kDefaultTCPMSS) ≤ 2 ^ 64)
    {ackedBytes priorInFlight minRtt eventTime : Nat}
    (result : sender.maybeIncreaseCwnd cbrt ackedBytes priorInFlight minRtt eventTime =
      .ok next) : next.InRange maxWindow := by
  rcases maybeIncreaseCwnd_cases result with rfl | ⟨_, rfl⟩ | ⟨room, _, rfl⟩ |
    ⟨cubic, window, computed, rfl⟩
  · exact { range with estimate := fun started => absurd rfl started }
  · exact { range with }
  · rw [range.max] at room
    have exact : addU64 sender.congestionWindow kDefaultTCPMSS =
        sender.congestionWindow + kDefaultTCPMSS := by
      refine addU64_of_lt (lt_of_lt_of_le ?_ fits)
      unfold kDefaultTCPMSS
      omega
    rw [exact]
    exact { range with
      above := range.above.trans (Nat.le_add_right _ _)
      below := Nat.add_lt_add_right room _ }
  · have before : sender.minCongestionWindow ≤ if sender.cubic.epoch = 0 then
        sender.congestionWindow else sender.cubic.estimatedTcpCongestionWindow := by
      split
      next => exact range.above
      next started => exact range.estimate started
    obtain ⟨least, below⟩ := estimate_congestionWindowAfterAck
      (range.leastSmall.trans_lt (by decide)) before computed
    have most : sender.minCongestionWindow ≤ sender.maxCongestionWindow := by
      rw [range.max]
      exact range.leastSmall.trans (range.initialLeast.trans range.initialMost)
    exact { range with
      above := le_min most (least.trans below)
      below := by
        refine (min_le_left _ _).trans_lt ?_
        rw [range.max]
        exact Nat.lt_add_of_pos_right (by decide)
      estimate := fun _ => least }

theorem onPacketAcked_cases (result : onPacketAcked cbrt event sender packet = .ok next) :
    (∃ prr, next = { sender with
      largestAckedPacketNumber := updateMax sender.largestAckedPacketNumber packet.packetNumber
      prr := prr }) ∨
    ∃ increased, maybeIncreaseCwnd cbrt { sender with
          largestAckedPacketNumber :=
            updateMax sender.largestAckedPacketNumber packet.packetNumber }
        packet.bytes event.priorInFlight event.minRtt event.eventTime = .ok increased ∧
      ∃ hybridSlowStart, next = { increased with hybridSlowStart := hybridSlowStart } := by
  unfold onPacketAcked at result
  dsimp only at result
  split at result
  next =>
    split at result
    next => exact Or.inl ⟨_, (Except.ok.inj result).symm⟩
    next => exact Or.inl ⟨_, (Except.ok.inj result).symm⟩
  next =>
    obtain ⟨increased, computed, rest⟩ := bind_eq_ok.mp result
    refine Or.inr ⟨increased, computed, ?_⟩
    rw [← Except.ok.inj rest]
    unfold endRound
    split
    next => exact ⟨_, rfl⟩
    next => exact ⟨increased.hybridSlowStart, rfl⟩

theorem InRange.onPacketAcked (range : sender.InRange maxWindow)
    (fits : 2 * (maxWindow + kDefaultTCPMSS) ≤ 2 ^ 64)
    (result : onPacketAcked cbrt event sender packet = .ok next) :
    next.InRange maxWindow := by
  rcases onPacketAcked_cases result with ⟨_, rfl⟩ | ⟨increased, computed, _, rfl⟩
  · exact { range with }
  · have acked : InRange maxWindow { sender with
        largestAckedPacketNumber :=
          updateMax sender.largestAckedPacketNumber packet.packetNumber } := { range with }
    exact { acked.maybeIncreaseCwnd fits computed with }

theorem maybeExitSlowstart_frame (sender : TcpCubicSenderBytes) (event : CubicEvent) :
    ∃ hybridSlowStart slowstartThreshold, sender.maybeExitSlowstart event = { sender with
      hybridSlowStart := hybridSlowStart, slowstartThreshold := slowstartThreshold } := by
  unfold maybeExitSlowstart
  split
  next => exact ⟨_, _, rfl⟩
  next => exact ⟨sender.hybridSlowStart, sender.slowstartThreshold, rfl⟩

theorem InRange.onCongestionEvent (range : sender.InRange maxWindow)
    (fits : 2 * (maxWindow + kDefaultTCPMSS) ≤ 2 ^ 64)
    (small : ∀ packet ∈ event.lostPackets, packet.bytes ≤ kDefaultTCPMSS)
    (result : sender.onCongestionEvent cbrt event = .ok next) : next.InRange maxWindow := by
  obtain ⟨reduced, losses, acknowledgements⟩ := bind_eq_ok.mp result
  have begun : (sender.maybeExitSlowstart event).InRange maxWindow := by
    obtain ⟨_, _, shape⟩ := sender.maybeExitSlowstart_frame event
    rw [shape]
    exact { range with }
  have reducedRange : reduced.InRange maxWindow :=
    foldlM_invariant (fun _ => InRange maxWindow) event.lostPackets
      (fun _ _ packet _ present holds lost => holds.onPacketLost fits (small packet present) lost)
      0 begun losses
  exact foldlM_invariant (fun _ => InRange maxWindow) event.ackedPackets
    (fun _ _ _ _ _ holds acked => holds.onPacketAcked fits acked) 0 reducedRange
    acknowledgements

end Acknowledgements

section Settings

variable {cbrt : Nat → Nat} {maxWindow : Nat} {sender next : TcpCubicSenderBytes}
  {action : CubicAction}

theorem InRange.setWindow (range : sender.InRange maxWindow) {window : Nat}
    (above : sender.minCongestionWindow ≤ window) (below : window ≤ maxWindow) :
    InRange maxWindow { sender with congestionWindow := window } :=
  { range with
    above := above
    below := lt_of_le_of_lt below (Nat.lt_add_of_pos_right (by decide)) }

theorem InRange.setInitialCongestionWindowInPackets (range : sender.InRange maxWindow)
    {packets : Nat} (fits : 2 * (maxWindow + kDefaultTCPMSS) ≤ 2 ^ 64) (least : 2 ≤ packets)
    (most : packets * kDefaultTCPMSS ≤ maxWindow) :
    (sender.setInitialCongestionWindowInPackets packets).InRange maxWindow := by
  have exact : mulU64 packets kDefaultTCPMSS = packets * kDefaultTCPMSS := by
    refine mulU64_of_lt (lt_of_le_of_lt most (lt_of_lt_of_le ?_ fits))
    unfold kDefaultTCPMSS
    omega
  unfold TcpCubicSenderBytes.setInitialCongestionWindowInPackets
  rw [exact]
  exact range.setWindow (range.leastSmall.trans (Nat.mul_le_mul_right _ least)) most

theorem InRange.setMinCongestionWindowInPackets (range : sender.InRange maxWindow) :
    (sender.setMinCongestionWindowInPackets 1).InRange maxWindow := by
  have exact : mulU64 1 kDefaultTCPMSS = kDefaultTCPMSS := by decide
  unfold TcpCubicSenderBytes.setMinCongestionWindowInPackets
  rw [exact]
  exact { range with
    leastPositive := le_refl _
    leastSmall := Nat.le_mul_of_pos_left _ (by decide)
    above := range.leastPositive.trans range.above
    estimate := fun started => range.leastPositive.trans (range.estimate started) }

theorem InRange.whenSet (range : sender.InRange maxWindow) (option : Bool)
    {change : TcpCubicSenderBytes → TcpCubicSenderBytes}
    (kept : ∀ sender : TcpCubicSenderBytes, sender.InRange maxWindow →
      (change sender).InRange maxWindow) :
    (whenSet option change sender).InRange maxWindow := by
  unfold TcpCubicSenderBytes.whenSet
  split
  next => exact kept sender range
  next => exact range

theorem InRange.setWindowsFromConfig (range : sender.InRange maxWindow)
    (fits : 2 * (maxWindow + kDefaultTCPMSS) ≤ 2 ^ 64)
    (large : kMaxResumptionCongestionWindow * kDefaultTCPMSS ≤ maxWindow)
    (options : CubicOptions) : (sender.setWindowsFromConfig options).InRange maxWindow := by
  have initial {packets : Nat} (least : 2 ≤ packets)
      (most : packets ≤ kMaxResumptionCongestionWindow) (sender : TcpCubicSenderBytes)
      (range : sender.InRange maxWindow) :
      (sender.setInitialCongestionWindowInPackets packets).InRange maxWindow :=
    range.setInitialCongestionWindowInPackets fits least
      ((Nat.mul_le_mul_right _ most).trans large)
  have iw03 := range.whenSet options.iw03 (initial (show 2 ≤ 3 by decide) (by decide))
  have iw10 := iw03.whenSet options.iw10 (initial (show 2 ≤ 10 by decide) (by decide))
  have iw20 := iw10.whenSet options.iw20 (initial (show 2 ≤ 20 by decide) (by decide))
  have iw50 := iw20.whenSet options.iw50 (initial (show 2 ≤ 50 by decide) (by decide))
  exact iw50.whenSet options.min1 fun _ => setMinCongestionWindowInPackets

theorem InRange.setFromConfig (range : sender.InRange maxWindow)
    (fits : 2 * (maxWindow + kDefaultTCPMSS) ≤ 2 ^ 64)
    (large : kMaxResumptionCongestionWindow * kDefaultTCPMSS ≤ maxWindow)
    (options : CubicOptions) (unifiedIwOptions : Bool) :
    (sender.setFromConfig options unifiedIwOptions).InRange maxWindow := by
  have windows : (if unifiedIwOptions then sender
      else sender.setWindowsFromConfig options).InRange maxWindow := by
    split
    next => exact range
    next => exact range.setWindowsFromConfig fits large options
  unfold TcpCubicSenderBytes.setFromConfig
  apply whenSet
  · apply whenSet
    · apply windows.whenSet
      intro sender range
      exact setMinCongestionWindowInPackets
        (show InRange maxWindow { sender with min4Mode := true } from { range with })
    · exact fun _ range => { range with }
  · exact fun _ range => { range with }

theorem InRange.adjustNetworkParameters (range : sender.InRange maxWindow)
    (large : kMaxResumptionCongestionWindow * kDefaultTCPMSS ≤ maxWindow) (bandwidth rtt : Nat) :
    (sender.adjustNetworkParameters bandwidth rtt).InRange maxWindow := by
  have least : sender.minCongestionWindow ≤ maxWindow :=
    range.leastSmall.trans (range.initialLeast.trans range.initialMost)
  unfold TcpCubicSenderBytes.adjustNetworkParameters
  split
  next => exact range
  next =>
    exact range.setWindow (le_max_left _ _) (max_le least ((min_le_right _ _).trans large))

theorem countSent_frame (sender : TcpCubicSenderBytes) :
    ∃ sent, (if sender.inSlowStart then
        { sender with stats.slowstartPacketsSent := sender.stats.slowstartPacketsSent + 1 }
      else sender) = { sender with stats.slowstartPacketsSent := sent } := by
  split
  next => exact ⟨_, rfl⟩
  next => exact ⟨sender.stats.slowstartPacketsSent, rfl⟩

theorem onPacketSent_cases {packetNumber bytes : Nat} {retransmittable : Bool}
    (result : sender.onPacketSent packetNumber bytes retransmittable = .ok next) :
    (retransmittable = false ∧
      ∃ sent, next = { sender with stats.slowstartPacketsSent := sent }) ∨
    retransmittable = true ∧
      (∀ largest, sender.largestSentPacketNumber = some largest → largest < packetNumber) ∧
      ∃ sent, next = { sender with
        stats.slowstartPacketsSent := sent
        prr := if sender.inRecovery then sender.prr.onPacketSent bytes else sender.prr
        largestSentPacketNumber := some packetNumber
        hybridSlowStart := sender.hybridSlowStart.onPacketSent packetNumber } := by
  obtain ⟨sent, counted⟩ := sender.countSent_frame
  unfold onPacketSent at result
  rw [counted] at result
  cases retransmittable with
  | false => exact Or.inl ⟨rfl, sent, (Except.ok.inj result).symm⟩
  | true =>
      have recovered : (if inRecovery { sender with stats.slowstartPacketsSent := sent } then
          { sender with
            stats.slowstartPacketsSent := sent, prr := sender.prr.onPacketSent bytes }
          else { sender with stats.slowstartPacketsSent := sent }) = { sender with
            stats.slowstartPacketsSent := sent
            prr := if sender.inRecovery then sender.prr.onPacketSent bytes else sender.prr } := by
        rw [show inRecovery { sender with stats.slowstartPacketsSent := sent } =
          sender.inRecovery from rfl]
        split
        next => rfl
        next => rfl
      simp only [Bool.not_true, Bool.false_eq_true, if_false, recovered] at result
      obtain ⟨increasing, shape⟩ := check_eq_ok.mp result
      simp only [Option.any_eq_true, decide_eq_true_eq, not_exists, not_and, not_le] at increasing
      exact Or.inr ⟨rfl, increasing, sent, shape⟩

theorem InRange.onPacketSent (range : sender.InRange maxWindow) {packetNumber bytes : Nat}
    {retransmittable : Bool}
    (result : sender.onPacketSent packetNumber bytes retransmittable = .ok next) :
    next.InRange maxWindow := by
  rcases onPacketSent_cases result with ⟨_, _, rfl⟩ | ⟨_, _, _, rfl⟩
  · exact { range with }
  · exact { range with }

theorem InRange.perform (range : sender.InRange maxWindow)
    (fits : 2 * (maxWindow + kDefaultTCPMSS) ≤ 2 ^ 64)
    (large : kMaxResumptionCongestionWindow * kDefaultTCPMSS ≤ maxWindow)
    (admissible : Admissible maxWindow action)
    (result : sender.perform cbrt action = .ok next) : next.InRange maxWindow := by
  cases action with
  | packetSent packetNumber bytes retransmittable => exact range.onPacketSent result
  | congestionEvent event => exact range.onCongestionEvent fits admissible result
  | retransmissionTimeout packetsRetransmitted =>
      rw [← Except.ok.inj result]
      unfold onRetransmissionTimeout
      split
      next =>
        exact { range with
          above := le_refl _
          below := range.above.trans_lt range.below
          estimate := fun started => absurd rfl started }
      next => exact { range with }
  | connectionMigration =>
      rw [← Except.ok.inj result]
      exact { range with
        max := range.initialMax
        above := range.leastSmall.trans range.initialLeast
        below := lt_of_le_of_lt range.initialMost (Nat.lt_add_of_pos_right (by decide))
        estimate := fun started => absurd rfl started }
  | setInitialCongestionWindowInPackets congestionWindow =>
      rw [← Except.ok.inj result]
      exact range.setInitialCongestionWindowInPackets fits admissible.1 admissible.2
  | setFromConfig options unifiedIwOptions =>
      rw [← Except.ok.inj result]
      exact range.setFromConfig fits large options unifiedIwOptions
  | adjustNetworkParameters bandwidth rtt =>
      rw [← Except.ok.inj result]
      exact range.adjustNetworkParameters large bandwidth rtt

end Settings

variable {cbrt : Nat → Nat} {actions : List CubicAction}
  {sender : TcpCubicSenderBytes} {initialWindow maxWindow : Nat}

theorem inRange_create (reno : Bool) (least : 2 ≤ initialWindow)
    (most : initialWindow ≤ maxWindow)
    (fits : 2 * (maxWindow * kDefaultTCPMSS + kDefaultTCPMSS) ≤ 2 ^ 64) :
    (create reno initialWindow maxWindow).InRange (maxWindow * kDefaultTCPMSS) := by
  have bytes := Nat.mul_le_mul_right kDefaultTCPMSS most
  have small : maxWindow * kDefaultTCPMSS < 2 ^ 64 := by
    refine lt_of_lt_of_le ?_ fits
    unfold kDefaultTCPMSS
    omega
  have initial : mulU64 initialWindow kDefaultTCPMSS = initialWindow * kDefaultTCPMSS :=
    mulU64_of_lt (bytes.trans_lt small)
  have enough : 2 * kDefaultTCPMSS ≤ initialWindow * kDefaultTCPMSS :=
    Nat.mul_le_mul_right _ least
  have slack : maxWindow * kDefaultTCPMSS < maxWindow * kDefaultTCPMSS + kDefaultTCPMSS :=
    Nat.lt_add_of_pos_right (by decide)
  unfold create
  rw [initial, mulU64_of_lt small]
  exact {
    max := rfl
    initialMax := rfl
    initialLeast := enough
    initialMost := bytes
    leastPositive := Nat.le_mul_of_pos_left _ (by decide)
    leastSmall := le_refl _
    above := enough
    below := bytes.trans_lt slack
    exitLeast := le_refl _
    exitMost := (enough.trans bytes).trans_lt slack
    estimate := fun started => absurd rfl started }

/-- In every run of a Reno or Cubic sender, through losses, timeouts,
migrations and changed settings, the window is at least the minimum, which is
never less than a segment, and less than a segment above the maximum. -/
theorem window_in_range (reno : Bool) (least : 2 ≤ initialWindow)
    (most : initialWindow ≤ maxWindow) (large : kMaxResumptionCongestionWindow ≤ maxWindow)
    (fits : 2 * (maxWindow * kDefaultTCPMSS + kDefaultTCPMSS) ≤ 2 ^ 64)
    (run : Run (Guarded (fun _ => Admissible (maxWindow * kDefaultTCPMSS)) (perform cbrt))
      (create reno initialWindow maxWindow) actions sender) :
    kDefaultTCPMSS ≤ sender.minCongestionWindow ∧
      sender.minCongestionWindow ≤ sender.congestionWindow ∧
      sender.congestionWindow < maxWindow * kDefaultTCPMSS + kDefaultTCPMSS := by
  have range : sender.InRange (maxWindow * kDefaultTCPMSS) :=
    run.invariant (InRange (maxWindow * kDefaultTCPMSS)) (inRange_create reno least most fits)
      fun _ _ _ holds step =>
        holds.perform fits (Nat.mul_le_mul_right _ large) step.1 step.2
  exact ⟨range.leastPositive, range.above, range.below⟩

/-- A Cubic sender that loses a packet in slow start. -/
theorem window_in_range_loss :
    ∃ sender : TcpCubicSenderBytes,
      Run (Guarded (fun _ => Admissible (2000 * kDefaultTCPMSS)) (perform id))
        (create false 32 2000)
        [.packetSent 1 1350 true, .packetSent 2 1350 true,
          .congestionEvent ⟨true, 100000, 100000, 2700, 100000, [⟨2, 1350⟩], [⟨1, 1350⟩]⟩]
        sender ∧
      sender.congestionWindow = 39712 ∧ sender.congestionWindow < 2001 * kDefaultTCPMSS := by
  have run : Run (Guarded (fun _ => Admissible (2000 * kDefaultTCPMSS)) (perform id))
      (create false 32 2000) _ _ :=
    Run.of_execute
      [.packetSent 1 1350 true, .packetSent 2 1350 true,
        .congestionEvent ⟨true, 100000, 100000, 2700, 100000, [⟨2, 1350⟩], [⟨1, 1350⟩]⟩] rfl
  have range := window_in_range false (by decide) (by decide) (by decide) (by decide) run
  exact ⟨_, run, by decide +kernel, range.2.2⟩

end TcpCubicSenderBytes

end Ns3Quic.CongestionControl
