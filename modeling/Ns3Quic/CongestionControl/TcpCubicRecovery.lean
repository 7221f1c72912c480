import Ns3Quic.CongestionControl.TcpCubicWindow

/-!
# Recovery of the Reno and Cubic sender

A loss event cuts the window once for all packets sent before it.  Until one
sent later is acknowledged, the window is not touched, and what is sent is
bounded by what is delivered.
-/

namespace Ns3Quic.CongestionControl

open TransitionSystem LoopRules

def ReportedPacket.total (packets : List ReportedPacket) : Nat :=
  (packets.map ReportedPacket.bytes).sum

inductive RecoveryAction where
  /-- A packet with data that is sent while `bytesInFlight` bytes are in
  flight. -/
  | packetSent (packetNumber bytes bytesInFlight : Nat)
  | congestionEvent (event : CubicEvent)
  deriving DecidableEq

namespace RecoveryAction

def toAction : RecoveryAction → CubicAction
  | .packetSent packetNumber bytes _ => .packetSent packetNumber bytes true
  | .congestionEvent event => .congestionEvent event

def sentBytes : RecoveryAction → Nat
  | .packetSent _ bytes _ => bytes
  | .congestionEvent _ => 0

/-- Bytes sent while less than a segment is in flight. -/
def limitedBytes : RecoveryAction → Nat
  | .packetSent _ bytes bytesInFlight => if bytesInFlight < kMaxSegmentSize then bytes else 0
  | .congestionEvent _ => 0

def deliveredBytes : RecoveryAction → Nat
  | .packetSent _ _ _ => 0
  | .congestionEvent event => ReportedPacket.total event.ackedPackets

def ackCount : RecoveryAction → Nat
  | .packetSent _ _ _ => 0
  | .congestionEvent event => event.ackedPackets.length

end RecoveryAction

namespace PrrSender

def onPacketsAcked (prr : PrrSender) (packets : List ReportedPacket) : PrrSender :=
  packets.foldl (fun prr packet => prr.onPacketAcked packet.bytes) prr

/-- The counters after an action, if none wraps. -/
def count (prr : PrrSender) (action : RecoveryAction) : PrrSender :=
  { prr with
    bytesSentSinceLoss := prr.bytesSentSinceLoss + action.sentBytes
    bytesDeliveredSinceLoss := prr.bytesDeliveredSinceLoss + action.deliveredBytes
    ackCountSinceLoss := prr.ackCountSinceLoss + action.ackCount }

/-- No operation on the counters wraps. -/
structure Fits (threshold : Nat) (prr : PrrSender) : Prop where
  sent : prr.bytesSentSinceLoss < 2 ^ 64
  sentShare : prr.bytesSentSinceLoss * prr.bytesInFlightBeforeLoss < 2 ^ 64
  delivered : prr.bytesDeliveredSinceLoss + prr.ackCountSinceLoss * kMaxSegmentSize < 2 ^ 64
  deliveredShare : prr.bytesDeliveredSinceLoss * threshold < 2 ^ 64

variable {prr : PrrSender} {action : RecoveryAction} {threshold limited : Nat}

theorem Fits.of_count (fits : (prr.count action).Fits threshold) : prr.Fits threshold where
  sent := (Nat.le_add_right _ _).trans_lt fits.sent
  sentShare := (Nat.mul_le_mul_right _ (Nat.le_add_right _ _)).trans_lt fits.sentShare
  delivered := (Nat.add_le_add (Nat.le_add_right _ _)
    (Nat.mul_le_mul_right _ (Nat.le_add_right _ _))).trans_lt fits.delivered
  deliveredShare := (Nat.mul_le_mul_right _ (Nat.le_add_right _ _)).trans_lt fits.deliveredShare

theorem onPacketsAcked_eq {packets : List ReportedPacket}
    (delivered : prr.bytesDeliveredSinceLoss + ReportedPacket.total packets < 2 ^ 64)
    (acks : prr.ackCountSinceLoss + packets.length < 2 ^ 64) :
    prr.onPacketsAcked packets = { prr with
      bytesDeliveredSinceLoss := prr.bytesDeliveredSinceLoss + ReportedPacket.total packets
      ackCountSinceLoss := prr.ackCountSinceLoss + packets.length } := by
  induction packets generalizing prr with
  | nil => rfl
  | cons packet rest inductionHypothesis =>
      have total : ReportedPacket.total (packet :: rest) =
          packet.bytes + ReportedPacket.total rest := by
        simp [ReportedPacket.total]
      rw [total] at delivered ⊢
      rw [List.length_cons] at acks ⊢
      have step : prr.onPacketAcked packet.bytes = { prr with
          bytesDeliveredSinceLoss := prr.bytesDeliveredSinceLoss + packet.bytes
          ackCountSinceLoss := prr.ackCountSinceLoss + 1 } := by
        unfold onPacketAcked
        rw [addU64_of_lt (by omega), addU64_of_lt (by omega)]
      unfold onPacketsAcked
      rw [List.foldl_cons, step]
      refine (inductionHypothesis (by dsimp only; omega) (by dsimp only; omega)).trans ?_
      dsimp only
      rw [Nat.add_assoc, Nat.add_assoc, Nat.add_comm 1]

/-- What is sent is bounded by what is delivered: a segment for every
acknowledgement beyond the bytes, or the share of the new window in the old
flight. -/
def Within (limited threshold : Nat) (prr : PrrSender) : Prop :=
  prr.bytesSentSinceLoss ≤ limited + kMaxSegmentSize +
    max (prr.bytesDeliveredSinceLoss + prr.ackCountSinceLoss * kMaxSegmentSize)
      (prr.bytesDeliveredSinceLoss * threshold / prr.bytesInFlightBeforeLoss)

theorem canSend_cases {window flight : Nat} (fits : prr.Fits threshold)
    (positive : 0 < prr.bytesInFlightBeforeLoss)
    (allowed : prr.canSend window flight threshold = true) :
    flight < kMaxSegmentSize ∨ prr.bytesSentSinceLoss ≤
      max (prr.bytesDeliveredSinceLoss + prr.ackCountSinceLoss * kMaxSegmentSize)
        (prr.bytesDeliveredSinceLoss * threshold / prr.bytesInFlightBeforeLoss) := by
  have acks : prr.ackCountSinceLoss * kMaxSegmentSize < 2 ^ 64 :=
    (Nat.le_add_left _ _).trans_lt fits.delivered
  unfold canSend at allowed
  split at allowed
  next limited =>
    rcases limited with nothingSent | small
    · rw [nothingSent]
      exact Or.inr (Nat.zero_le _)
    · exact Or.inl small
  next =>
    right
    split at allowed
    next =>
      rw [decide_eq_true_iff, mulU64_of_lt acks, addU64_of_lt fits.delivered] at allowed
      exact allowed.le.trans (le_max_left _ _)
    next =>
      rw [decide_eq_true_iff, mulU64_of_lt fits.sentShare,
        mulU64_of_lt fits.deliveredShare] at allowed
      exact ((Nat.le_div_iff_mul_le positive).mpr allowed.le).trans (le_max_right _ _)

theorem canSend_of_share {window : Nat} (fits : prr.Fits threshold)
    (smaller : threshold ≤ prr.bytesInFlightBeforeLoss)
    (share : prr.bytesSentSinceLoss * prr.bytesInFlightBeforeLoss <
      prr.bytesDeliveredSinceLoss * threshold) (flight : Nat) :
    prr.canSend window flight threshold = true := by
  have acks : prr.ackCountSinceLoss * kMaxSegmentSize < 2 ^ 64 :=
    (Nat.le_add_left _ _).trans_lt fits.delivered
  unfold canSend
  split
  next => rfl
  next =>
    split
    next =>
      rw [decide_eq_true_iff, mulU64_of_lt acks, addU64_of_lt fits.delivered]
      have less := share.trans_le (Nat.mul_le_mul_left prr.bytesDeliveredSinceLoss smaller)
      exact (Nat.lt_of_mul_lt_mul_right less).trans_le (Nat.le_add_right _ _)
    next =>
      rw [decide_eq_true_iff, mulU64_of_lt fits.sentShare, mulU64_of_lt fits.deliveredShare]
      exact share

end PrrSender

namespace TcpCubicSenderBytes

def BeforeCutback (sender : TcpCubicSenderBytes) (packet : ReportedPacket) : Prop :=
  ∃ cutback ∈ sender.largestSentAtLastCutback, packet.packetNumber ≤ cutback

instance (sender : TcpCubicSenderBytes) (packet : ReportedPacket) :
    Decidable (sender.BeforeCutback packet) :=
  decidable_of_iff (sender.largestSentAtLastCutback.any
      fun cutback => decide (packet.packetNumber ≤ cutback)) <| by
    simp [BeforeCutback, Option.any_eq_true]

/-- A packet of at most a segment is sent if `CanSend` allows it, and only
packets that were sent before the cutback are reported. -/
def AllowedInRecovery (sender : TcpCubicSenderBytes) : RecoveryAction → Prop
  | .packetSent _ bytes bytesInFlight =>
      sender.canSend bytesInFlight = true ∧ bytes ≤ kMaxSegmentSize
  | .congestionEvent event =>
      (∀ packet ∈ event.ackedPackets, sender.BeforeCutback packet) ∧
        ∀ packet ∈ event.lostPackets, sender.BeforeCutback packet

instance (sender : TcpCubicSenderBytes) (action : RecoveryAction) :
    Decidable (sender.AllowedInRecovery action) :=
  match action with
  | .packetSent _ _ _ => inferInstanceAs (Decidable (_ ∧ _))
  | .congestionEvent _ => inferInstanceAs (Decidable ((∀ _ ∈ _, _) ∧ ∀ _ ∈ _, _))

def RecoveryStep (cbrt : Nat → Nat) :
    TcpCubicSenderBytes → RecoveryAction → TcpCubicSenderBytes → Prop :=
  Guarded AllowedInRecovery fun sender action => sender.perform cbrt action.toAction

/-- The sender has cut its window, and no packet sent later is acknowledged. -/
structure Recovering (cutback window lossEvents : Nat) (prr : PrrSender)
    (sender : TcpCubicSenderBytes) : Prop where
  sameCutback : sender.largestSentAtLastCutback = some cutback
  acked : ∃ acked, sender.largestAckedPacketNumber = some acked ∧ acked ≤ cutback
  sameWindow : sender.congestionWindow = window
  sameThreshold : sender.slowstartThreshold = window
  sameLossEvents : sender.stats.tcpLossEvents = lossEvents
  samePrr : sender.prr = prr
  usesPrr : sender.noPrr = false
  smallReduction : sender.slowStartLargeReduction = false

section Steps

variable {cbrt : Nat → Nat} {cutback window lossEvents : Nat} {prr : PrrSender}
  {sender next : TcpCubicSenderBytes} {packet : ReportedPacket} {event : CubicEvent}
  {packets : List ReportedPacket}

theorem Recovering.inRecovery (recovering : sender.Recovering cutback window lossEvents prr) :
    sender.inRecovery = true := by
  obtain ⟨acked, same, before⟩ := recovering.acked
  unfold TcpCubicSenderBytes.inRecovery
  rw [same, recovering.sameCutback]
  exact decide_eq_true before

theorem onPacketAcked_of_recovery (usesPrr : sender.noPrr = false)
    (recovers : inRecovery { sender with
      largestAckedPacketNumber :=
        updateMax sender.largestAckedPacketNumber packet.packetNumber } = true) :
    onPacketAcked cbrt event sender packet = .ok { sender with
      largestAckedPacketNumber := updateMax sender.largestAckedPacketNumber packet.packetNumber
      prr := sender.prr.onPacketAcked packet.bytes } := by
  unfold onPacketAcked
  dsimp only
  rw [if_pos recovers, usesPrr, if_neg Bool.false_ne_true]

theorem Recovering.onPacketAcked (recovering : sender.Recovering cutback window lossEvents prr)
    (before : packet.packetNumber ≤ cutback)
    (result : onPacketAcked cbrt event sender packet = .ok next) :
    next.Recovering cutback window lossEvents (prr.onPacketAcked packet.bytes) := by
  obtain ⟨acked, same, earlier⟩ := recovering.acked
  have updated : Recovering cutback window lossEvents prr { sender with
      largestAckedPacketNumber :=
        updateMax sender.largestAckedPacketNumber packet.packetNumber } :=
    { recovering with
      acked := ⟨max acked packet.packetNumber, by simp only [same, updateMax],
        max_le earlier before⟩ }
  rw [onPacketAcked_of_recovery recovering.usesPrr updated.inRecovery] at result
  rw [← Except.ok.inj result]
  exact { updated with
    samePrr := congrArg (PrrSender.onPacketAcked · packet.bytes) recovering.samePrr }

theorem ignoreLoss_frame (small : sender.slowStartLargeReduction = false) (lostBytes : Nat) :
    ∃ packetsLost bytesLost, sender.ignoreLoss lostBytes = { sender with
      stats.slowstartPacketsLost := packetsLost, stats.slowstartBytesLost := bytesLost } := by
  unfold ignoreLoss
  split
  next =>
    dsimp only
    rw [if_neg (by rw [small]; exact Bool.false_ne_true)]
    exact ⟨_, _, rfl⟩
  next => exact ⟨sender.stats.slowstartPacketsLost, sender.stats.slowstartBytesLost, rfl⟩

theorem Recovering.onPacketLost (recovering : sender.Recovering cutback window lossEvents prr)
    (before : packet.packetNumber ≤ cutback) {priorInFlight : Nat}
    (result : onPacketLost priorInFlight sender packet = .ok next) :
    next.Recovering cutback window lossEvents prr := by
  rcases onPacketLost_cases result with ⟨_, rfl⟩ | ⟨later, _⟩
  · obtain ⟨_, _, shape⟩ := ignoreLoss_frame recovering.smallReduction packet.bytes
    rw [shape]
    exact { recovering with }
  · exact absurd before (not_le.mpr (later cutback recovering.sameCutback))

theorem Recovering.acknowledge (recovering : sender.Recovering cutback window lossEvents prr)
    (before : ∀ packet ∈ packets, packet.packetNumber ≤ cutback)
    (result : packets.foldlM (TcpCubicSenderBytes.onPacketAcked cbrt event) sender =
      .ok next) :
    next.Recovering cutback window lossEvents (prr.onPacketsAcked packets) := by
  induction packets generalizing sender prr with
  | nil => exact Except.ok.inj result ▸ recovering
  | cons packet rest inductionHypothesis =>
      rw [List.foldlM_cons] at result
      obtain ⟨after, acked, later⟩ := bind_eq_ok.mp result
      exact inductionHypothesis
        (recovering.onPacketAcked (before packet List.mem_cons_self) acked)
        (fun other present => before other (List.mem_cons_of_mem _ present)) later

theorem Recovering.maybeExitSlowstart
    (recovering : sender.Recovering cutback window lossEvents prr) (event : CubicEvent) :
    sender.maybeExitSlowstart event = sender := by
  have avoids : sender.inSlowStart = false := by
    unfold inSlowStart
    rw [recovering.sameWindow, recovering.sameThreshold]
    exact decide_eq_false (lt_irrefl window)
  unfold TcpCubicSenderBytes.maybeExitSlowstart
  rw [avoids, Bool.and_false, if_neg Bool.false_ne_true]

theorem Recovering.before (recovering : sender.Recovering cutback window lossEvents prr)
    (reported : sender.BeforeCutback packet) : packet.packetNumber ≤ cutback := by
  obtain ⟨other, same, earlier⟩ := reported
  rw [recovering.sameCutback, Option.mem_some_iff] at same
  rwa [same]

theorem Recovering.onCongestionEvent
    (recovering : sender.Recovering cutback window lossEvents prr)
    (allowed : sender.AllowedInRecovery (.congestionEvent event))
    (result : sender.onCongestionEvent cbrt event = .ok next) :
    next.Recovering cutback window lossEvents (prr.onPacketsAcked event.ackedPackets) := by
  obtain ⟨reduced, losses, acknowledgements⟩ := bind_eq_ok.mp result
  rw [recovering.maybeExitSlowstart event] at losses
  have lost : reduced.Recovering cutback window lossEvents prr :=
    foldlM_invariant (fun _ => Recovering cutback window lossEvents prr) event.lostPackets
      (fun _ _ packet _ present holds lost =>
        holds.onPacketLost (recovering.before (allowed.2 packet present)) lost)
      0 recovering losses
  exact lost.acknowledge (fun packet present => recovering.before (allowed.1 packet present))
    acknowledgements

theorem Recovering.onPacketSent (recovering : sender.Recovering cutback window lossEvents prr)
    {packetNumber bytes : Nat}
    (result : sender.onPacketSent packetNumber bytes true = .ok next) :
    next.Recovering cutback window lossEvents (prr.onPacketSent bytes) := by
  rcases onPacketSent_cases result with ⟨impossible, _⟩ | ⟨_, _, _, rfl⟩
  · cases impossible
  · rw [recovering.inRecovery, if_pos rfl]
    exact { recovering with
      samePrr := congrArg (PrrSender.onPacketSent · bytes) recovering.samePrr }

end Steps

section Runs

variable {cbrt : Nat → Nat} {cutback window lossEvents : Nat} {prr : PrrSender}
  {sender next start last : TcpCubicSenderBytes} {action : RecoveryAction}
  {actions : List RecoveryAction} {event : CubicEvent} {packets : List ReportedPacket}

theorem Recovering.step (recovering : sender.Recovering cutback window lossEvents prr)
    (fits : (prr.count action).Fits window)
    (step : RecoveryStep cbrt sender action next) :
    next.Recovering cutback window lossEvents (prr.count action) := by
  obtain ⟨allowed, result⟩ := step
  cases action with
  | packetSent packetNumber bytes bytesInFlight =>
      have sent := recovering.onPacketSent result
      unfold PrrSender.onPacketSent at sent
      rw [addU64_of_lt (show prr.bytesSentSinceLoss + bytes < 2 ^ 64 from fits.sent)] at sent
      exact sent
  | congestionEvent event =>
      have acked := recovering.onCongestionEvent allowed result
      have acks := (Nat.le_mul_of_pos_right (prr.ackCountSinceLoss + event.ackedPackets.length)
        (show 0 < kMaxSegmentSize by decide)).trans_lt
        ((Nat.le_add_left _ _).trans_lt fits.delivered)
      rw [PrrSender.onPacketsAcked_eq ((Nat.le_add_right _ _).trans_lt fits.delivered) acks]
        at acked
      exact acked

theorem Recovering.within_step (recovering : sender.Recovering cutback window lossEvents prr)
    (fits : prr.Fits window) (positive : 0 < prr.bytesInFlightBeforeLoss) {limited : Nat}
    (within : prr.Within limited window) (allowed : sender.AllowedInRecovery action) :
    (prr.count action).Within (limited + action.limitedBytes) window := by
  cases action with
  | packetSent packetNumber bytes bytesInFlight =>
      obtain ⟨canSend, small⟩ := allowed
      have permits : prr.canSend window bytesInFlight window = true := by
        unfold TcpCubicSenderBytes.canSend at canSend
        rw [recovering.usesPrr, recovering.inRecovery, if_pos (by rfl), recovering.samePrr,
          recovering.sameWindow, recovering.sameThreshold] at canSend
        exact canSend
      unfold PrrSender.Within at within ⊢
      rcases PrrSender.canSend_cases fits positive permits with limitedTransmit | enough
      · simp only [PrrSender.count, RecoveryAction.sentBytes, RecoveryAction.deliveredBytes,
          RecoveryAction.ackCount, RecoveryAction.limitedBytes, if_pos limitedTransmit,
          Nat.add_zero]
        omega
      · simp only [PrrSender.count, RecoveryAction.sentBytes, RecoveryAction.deliveredBytes,
          RecoveryAction.ackCount, Nat.add_zero]
        omega
  | congestionEvent event =>
      unfold PrrSender.Within at within ⊢
      refine within.trans (Nat.add_le_add_left (max_le_max ?_ ?_) _)
      · exact Nat.add_le_add (Nat.le_add_right _ _)
          (Nat.mul_le_mul_right _ (Nat.le_add_right _ _))
      · exact Nat.div_le_div_right (Nat.mul_le_mul_right _ (Nat.le_add_right _ _))

theorem Recovering.of_run (recovering : start.Recovering cutback window lossEvents prr)
    (positive : 0 < prr.bytesInFlightBeforeLoss) (within : prr.Within 0 window)
    (run : Run (RecoveryStep cbrt) start actions last)
    (fits : (actions.foldl PrrSender.count prr).Fits window) :
    last.Recovering cutback window lossEvents (actions.foldl PrrSender.count prr) ∧
      (actions.foldl PrrSender.count prr).Within
        (actions.map RecoveryAction.limitedBytes).sum window ∧
      (actions.foldl PrrSender.count prr).bytesInFlightBeforeLoss =
        prr.bytesInFlightBeforeLoss := by
  induction run with
  | start => exact ⟨recovering, within, rfl⟩
  | @snoc actions action middle last _ step inductionHypothesis =>
      rw [List.foldl_append, List.foldl_cons, List.foldl_nil] at fits ⊢
      obtain ⟨before, bounded, prior⟩ := inductionHypothesis fits.of_count
      rw [← prior] at positive
      refine ⟨before.step fits step, ?_, prior⟩
      rw [List.map_append, List.sum_append, List.map_singleton, List.sum_singleton]
      exact before.within_step fits.of_count positive bounded step.1

/-! ### The event that cuts the window -/

/-- Either no loss of the event was counted yet, or the window was cut and
nothing sent or delivered since. -/
structure CutBy (priorInFlight lossEvents : Nat) (sender : TcpCubicSenderBytes) : Prop where
  usesPrr : sender.noPrr = false
  smallReduction : sender.slowStartLargeReduction = false
  cut : sender.stats.tcpLossEvents = lossEvents ∨
    sender.prr = .onPacketLost priorInFlight ∧
      sender.slowstartThreshold = sender.congestionWindow

theorem CutBy.onPacketLost {priorInFlight : Nat} {packet : ReportedPacket}
    (cutBy : sender.CutBy priorInFlight lossEvents)
    (result : onPacketLost priorInFlight sender packet = .ok next) :
    next.CutBy priorInFlight lossEvents := by
  rcases onPacketLost_cases result with ⟨_, rfl⟩ | ⟨_, reduced, computed, rfl⟩
  · obtain ⟨_, _, shape⟩ := ignoreLoss_frame cutBy.smallReduction packet.bytes
    rw [shape]
    exact { cutBy with }
  · have restarted : (sender.noteLossEvent priorInFlight).prr = .onPacketLost priorInFlight := by
      unfold noteLossEvent
      dsimp only
      rw [cutBy.usesPrr, if_neg Bool.false_ne_true]
    rcases reduceWindow_cases computed with ⟨_, rfl, _⟩ | ⟨_, rfl, _⟩
    · exact ⟨cutBy.usesPrr, cutBy.smallReduction, Or.inr ⟨restarted, rfl⟩⟩
    · exact ⟨cutBy.usesPrr, cutBy.smallReduction, Or.inr ⟨restarted, rfl⟩⟩

theorem onPacketAcked_frame {packet : ReportedPacket}
    (result : onPacketAcked cbrt event sender packet = .ok next) :
    next.largestSentAtLastCutback = sender.largestSentAtLastCutback ∧
      next.largestAckedPacketNumber =
        updateMax sender.largestAckedPacketNumber packet.packetNumber := by
  rcases onPacketAcked_cases result with ⟨_, rfl⟩ | ⟨increased, computed, _, rfl⟩
  · exact ⟨rfl, rfl⟩
  · rcases maybeIncreaseCwnd_cases computed with rfl | ⟨_, rfl⟩ | ⟨_, _, rfl⟩ | ⟨_, _, _, rfl⟩ <;>
      exact ⟨rfl, rfl⟩

theorem acked_le_of_acknowledgements {acked : Nat}
    (before : sender.largestAckedPacketNumber = some acked)
    (result : packets.foldlM (onPacketAcked cbrt event) sender = .ok next) :
    next.largestSentAtLastCutback = sender.largestSentAtLastCutback ∧
      ∃ later, next.largestAckedPacketNumber = some later ∧ acked ≤ later := by
  induction packets generalizing sender acked with
  | nil =>
      rw [← Except.ok.inj result]
      exact ⟨rfl, acked, before, le_refl _⟩
  | cons packet rest inductionHypothesis =>
      rw [List.foldlM_cons] at result
      obtain ⟨after, step, later⟩ := bind_eq_ok.mp result
      obtain ⟨sameCutback, updated⟩ := onPacketAcked_frame step
      rw [before, updateMax] at updated
      obtain ⟨same, largest, found, above⟩ := inductionHypothesis updated later
      exact ⟨same.trans sameCutback, largest, found, (le_max_left _ _).trans above⟩

theorem inRecovery_iff : sender.inRecovery = true ↔
    ∃ acked cutback, sender.largestAckedPacketNumber = some acked ∧
      sender.largestSentAtLastCutback = some cutback ∧ acked ≤ cutback := by
  unfold inRecovery
  cases sender.largestAckedPacketNumber <;> cases sender.largestSentAtLastCutback <;> simp

/-- If the sender is in recovery after the acknowledgements of an event, then it
was so at each of them. -/
theorem acknowledgements_of_inRecovery (usesPrr : sender.noPrr = false)
    (result : packets.foldlM (onPacketAcked cbrt event) sender = .ok next)
    (recovers : next.inRecovery = true) :
    ∃ largestAcked, next = { sender with
      largestAckedPacketNumber := largestAcked
      prr := sender.prr.onPacketsAcked packets } := by
  induction packets generalizing sender with
  | nil =>
      rw [← Except.ok.inj result]
      exact ⟨sender.largestAckedPacketNumber, rfl⟩
  | cons packet rest inductionHypothesis =>
      rw [List.foldlM_cons] at result
      obtain ⟨after, step, later⟩ := bind_eq_ok.mp result
      obtain ⟨sameCutback, updated⟩ := onPacketAcked_frame step
      obtain ⟨acked, found⟩ : ∃ acked, updateMax sender.largestAckedPacketNumber
          packet.packetNumber = some acked := by
        unfold updateMax
        split
        next => exact ⟨_, rfl⟩
        next => exact ⟨_, rfl⟩
      obtain ⟨laterCutback, largest, laterAcked, above⟩ :=
        acked_le_of_acknowledgements (updated.trans found) later
      have recoversNow : inRecovery { sender with
          largestAckedPacketNumber :=
            updateMax sender.largestAckedPacketNumber packet.packetNumber } = true := by
        obtain ⟨last, cutback, sameLast, same, below⟩ := inRecovery_iff.mp recovers
        rw [laterAcked, Option.some.injEq] at sameLast
        refine inRecovery_iff.mpr ⟨acked, cutback, found, ?_, above.trans (sameLast ▸ below)⟩
        rw [← sameCutback, ← laterCutback, same]
      rw [onPacketAcked_of_recovery usesPrr recoversNow] at step
      rw [← Except.ok.inj step] at later
      exact inductionHypothesis (by exact usesPrr) later

theorem recovering_of_event (usesPrr : sender.noPrr = false)
    (smallReduction : sender.slowStartLargeReduction = false)
    (cut : sender.onCongestionEvent cbrt event = .ok start)
    (counted : start.stats.tcpLossEvents ≠ sender.stats.tcpLossEvents)
    (recovers : start.inRecovery = true) :
    ∃ cutback, start.Recovering cutback start.congestionWindow start.stats.tcpLossEvents
      ((PrrSender.onPacketLost event.priorInFlight).onPacketsAcked event.ackedPackets) := by
  obtain ⟨reduced, losses, acknowledgements⟩ := bind_eq_ok.mp cut
  have begun : (sender.maybeExitSlowstart event).CutBy event.priorInFlight
      sender.stats.tcpLossEvents := by
    obtain ⟨_, _, shape⟩ := sender.maybeExitSlowstart_frame event
    rw [shape]
    exact ⟨usesPrr, smallReduction, Or.inl rfl⟩
  have cutBy : reduced.CutBy event.priorInFlight sender.stats.tcpLossEvents :=
    foldlM_invariant (fun _ => CutBy event.priorInFlight sender.stats.tcpLossEvents)
      event.lostPackets (fun _ _ _ _ _ holds lost => holds.onPacketLost lost) 0 begun losses
  obtain ⟨acked, cutback, found, same, below⟩ := inRecovery_iff.mp recovers
  obtain ⟨largestAcked, rfl⟩ :=
    acknowledgements_of_inRecovery cutBy.usesPrr acknowledgements recovers
  rcases cutBy.cut with uncounted | ⟨restarted, threshold⟩
  · exact absurd uncounted counted
  · refine ⟨cutback, same, ⟨acked, found, below⟩, rfl, threshold, rfl, ?_, cutBy.usesPrr,
      cutBy.smallReduction⟩
    dsimp only
    rw [restarted]

/-- What is sent, delivered and acknowledged from the event that cuts the window
on. -/
def recoveryTotals (event : CubicEvent) (actions : List RecoveryAction) : PrrSender where
  bytesSentSinceLoss := (actions.map RecoveryAction.sentBytes).sum
  bytesDeliveredSinceLoss := ReportedPacket.total event.ackedPackets +
    (actions.map RecoveryAction.deliveredBytes).sum
  ackCountSinceLoss :=
    event.ackedPackets.length + (actions.map RecoveryAction.ackCount).sum
  bytesInFlightBeforeLoss := event.priorInFlight

theorem foldl_count (prr : PrrSender) (actions : List RecoveryAction) :
    actions.foldl PrrSender.count prr = { prr with
      bytesSentSinceLoss :=
        prr.bytesSentSinceLoss + (actions.map RecoveryAction.sentBytes).sum
      bytesDeliveredSinceLoss :=
        prr.bytesDeliveredSinceLoss + (actions.map RecoveryAction.deliveredBytes).sum
      ackCountSinceLoss :=
        prr.ackCountSinceLoss + (actions.map RecoveryAction.ackCount).sum } := by
  induction actions generalizing prr with
  | nil => rfl
  | cons action rest inductionHypothesis =>
      rw [List.foldl_cons, inductionHypothesis]
      simp [PrrSender.count, Nat.add_assoc]

theorem onPacketsAcked_of_fits {threshold : Nat}
    (fits : (recoveryTotals event actions).Fits threshold) :
    (PrrSender.onPacketLost event.priorInFlight).onPacketsAcked event.ackedPackets =
      ⟨0, ReportedPacket.total event.ackedPackets, event.ackedPackets.length,
        event.priorInFlight⟩ := by
  have delivered := (Nat.le_add_right _ _).trans_lt fits.delivered
  have acks := (Nat.le_mul_of_pos_right _ (show 0 < kMaxSegmentSize by decide)).trans_lt
    ((Nat.le_add_left _ _).trans_lt fits.delivered)
  simp only [recoveryTotals] at delivered acks
  rw [PrrSender.onPacketsAcked_eq]
  · simp [PrrSender.onPacketLost]
  · simp only [PrrSender.onPacketLost, Nat.zero_add]
    omega
  · simp only [PrrSender.onPacketLost, Nat.zero_add]
    omega

def firstLost : TcpCubicSenderBytes :=
  { create true 32 2000 with
    prr := ⟨0, 1350, 1, 43200⟩
    stats := ⟨0, 1, 0, 1⟩
    largestSentPacketNumber := some 32
    largestAckedPacketNumber := some 2
    largestSentAtLastCutback := some 32
    lastCutbackExitedSlowstart := true
    congestionWindow := 39712
    slowstartThreshold := 39712 }

def resumedSending : List RecoveryAction :=
  [.packetSent 33 1350 40500,
    .congestionEvent ⟨true, 100000, 100000, 41850, 200000, [⟨3, 1350⟩], []⟩]

end Runs

end TcpCubicSenderBytes

end Ns3Quic.CongestionControl
