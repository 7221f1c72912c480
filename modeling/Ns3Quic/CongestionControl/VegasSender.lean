import Ns3Quic.CongestionControl.WindowedFilter
import Ns3Quic.Lib.Fold
import Ns3Quic.Lib.Run

/-!
# The Vegas sender

`VegasSender` measures round-trip times once per acknowledgement event and
adjusts its window once per round, when a packet is acknowledged that was sent
after the round began.  After a loss it behaves like Reno until everything
sent before the loss is acknowledged.

An unset packet number is `none`.  Failed checks are faults, and so are the
divisions by zero that the source does not exclude.  `rtt_count_`, an `int32_t`
of the source, is unbounded.
-/

namespace Ns3Quic.CongestionControl

open TransitionSystem LoopRules

/-- `kDefaultMinimumCongestionWindow`, the value of `min_congestion_window_`. -/
def kDefaultMinimumCongestionWindow : Nat := 4 * kDefaultTCPMSS

def kAlphaCongestionWindow : Nat := 2 * kDefaultTCPMSS

def kBetaCongestionWindow : Nat := 4 * kDefaultTCPMSS

def kGammaCongestionWindow : Nat := 1 * kDefaultTCPMSS

def kMinRTTWindowLength : Nat := 10000000

inductive VegasFault where
  /-- `QUICHE_CHECK(beg_send_next_.IsInitialized())`. -/
  | begSendNextUnset
  /-- `QUICHE_CHECK(min_rtt_ >= base_rtt)`. -/
  | minRttBelowBaseRtt
  | divisionByZero
  /-- `QUICHE_DCHECK` in `OnPacketSent`: packet numbers increase. -/
  | packetNumberNotIncreasing
  deriving DecidableEq

structure VegasWindow where
  congestionWindow : Nat
  slowstartThreshold : Nat
  numAckedPackets : Nat
  deriving DecidableEq

namespace VegasWindow

def inSlowStart (window : VegasWindow) : Bool :=
  decide (window.congestionWindow < window.slowstartThreshold)

/-- `congestion_window_ += kDefaultTCPMSS`. -/
def grow (window : VegasWindow) : VegasWindow :=
  { window with congestionWindow := addU64 window.congestionWindow kDefaultTCPMSS }

def increaseCongestionWindowAsReno (window : VegasWindow) : VegasWindow :=
  if window.inSlowStart then
    window.grow
  else
    let window := { window with numAckedPackets := addU64 window.numAckedPackets 1 }
    if window.congestionWindow ≤ mulU64 window.numAckedPackets kDefaultTCPMSS then
      { window.grow with numAckedPackets := 0 }
    else
      window

def clamp (window : VegasWindow) : VegasWindow :=
  { window with
    congestionWindow := max window.congestionWindow kDefaultMinimumCongestionWindow }

def cutBack (window : VegasWindow) : VegasWindow :=
  let congestionWindow :=
    max (window.congestionWindow / 2) kDefaultMinimumCongestionWindow
  ⟨congestionWindow, congestionWindow, 0⟩

/-- `target_cwnd`, rounded up to whole segments. -/
def targetCwnd (window : VegasWindow) (baseRtt minRtt : Nat) : Nat :=
  addU64 (mulU64 window.congestionWindow baseRtt / minRtt) (kDefaultTCPMSS - 1) /
    kDefaultTCPMSS * kDefaultTCPMSS

def diff (window : VegasWindow) (baseRtt minRtt : Nat) : Nat :=
  mulU64 window.congestionWindow (minRtt - baseRtt) / baseRtt

def adjust (window : VegasWindow) (baseRtt minRtt : Nat) : VegasWindow :=
  let diff := window.diff baseRtt minRtt
  if kGammaCongestionWindow < diff ∧ window.inSlowStart then
    let congestionWindow := min window.congestionWindow (window.targetCwnd baseRtt minRtt)
    { window with
      congestionWindow := congestionWindow, slowstartThreshold := congestionWindow }
  else if window.inSlowStart then
    window.grow
  else if kBetaCongestionWindow < diff then
    if kDefaultMinimumCongestionWindow < window.congestionWindow then
      let congestionWindow := window.congestionWindow - kDefaultTCPMSS
      { window with
        congestionWindow := congestionWindow, slowstartThreshold := congestionWindow }
    else
      window
  else if diff < kAlphaCongestionWindow then
    window.grow
  else
    window

/-- `adjust` between the checks of the source. -/
def checkedAdjust (window : VegasWindow) (baseRtt minRtt : Nat) :
    Except VegasFault VegasWindow :=
  if minRtt = 0 then
    .error .divisionByZero
  else if minRtt < baseRtt then
    .error .minRttBelowBaseRtt
  else if baseRtt = 0 then
    .error .divisionByZero
  else
    .ok (window.adjust baseRtt minRtt)

end VegasWindow

structure VegasSender extends VegasWindow where
  largestSentPacketNumber : Option Nat
  largestAckedPacketNumber : Option Nat
  largestSentAtLastCutback : Option Nat
  baseRttFilter : WindowedFilter Nat
  minRtt : Nat
  rttCount : Nat
  begSendNext : Option Nat
  vegasMode : Bool
  deriving DecidableEq

namespace VegasSender

def create (initialTcpCongestionWindow maxTcpCongestionWindow : Nat) : VegasSender where
  congestionWindow := mulU64 initialTcpCongestionWindow kDefaultTCPMSS
  slowstartThreshold := mulU64 maxTcpCongestionWindow kDefaultTCPMSS
  numAckedPackets := 0
  largestSentPacketNumber := none
  largestAckedPacketNumber := none
  largestSentAtLastCutback := none
  baseRttFilter := .create kMinRTTWindowLength 0 0
  minRtt := infiniteUs
  rttCount := 0
  begSendNext := none
  vegasMode := true

def inRecovery (sender : VegasSender) : Bool :=
  match sender.largestAckedPacketNumber, sender.largestSentAtLastCutback with
  | some acked, some cutback => decide (acked ≤ cutback)
  | _, _ => false

def setInitialCongestionWindowInPackets (sender : VegasSender) (congestionWindow : Nat) :
    VegasSender :=
  if sender.inSlowStart then
    { sender with congestionWindow := mulU64 congestionWindow kDefaultTCPMSS }
  else
    sender

def onPacketSent (sender : VegasSender) (packetNumber : Nat) :
    Except VegasFault VegasSender :=
  if sender.largestSentPacketNumber.any fun largest => decide (packetNumber ≤ largest) then
    .error .packetNumberNotIncreasing
  else
    .ok { sender with
      largestSentPacketNumber := some packetNumber
      begSendNext := some (sender.begSendNext.getD packetNumber) }

def onPacketLost (sender : VegasSender) (packetNumber : Nat) : VegasSender :=
  if sender.largestSentAtLastCutback.any fun cutback => decide (packetNumber ≤ cutback) then
    sender
  else
    { sender with
      toVegasWindow := sender.toVegasWindow.cutBack
      largestSentAtLastCutback := sender.largestSentPacketNumber }

def roundEnd (sender : VegasSender) : Except VegasFault VegasWindow :=
  if sender.rttCount ≤ 2 then
    .ok sender.toVegasWindow.increaseCongestionWindowAsReno
  else
    sender.toVegasWindow.checkedAdjust sender.baseRttFilter.getBest sender.minRtt

def onPacketAcked (sender : VegasSender) (ackedPacketNumber : Nat) :
    Except VegasFault VegasSender :=
  let sender := { sender with
    largestAckedPacketNumber :=
      updateMax sender.largestAckedPacketNumber ackedPacketNumber }
  if !sender.vegasMode then
    .ok { sender with
      toVegasWindow := sender.toVegasWindow.increaseCongestionWindowAsReno }
  else
    match sender.begSendNext with
    | none => .error .begSendNextUnset
    | some begSendNext =>
        if begSendNext ≤ ackedPacketNumber then do
          let window ← sender.roundEnd
          pure { sender with
            toVegasWindow := window.clamp
            begSendNext := sender.largestSentPacketNumber
            minRtt := infiniteUs
            rttCount := 0 }
        else
          let window :=
            if sender.inSlowStart then sender.toVegasWindow.grow else sender.toVegasWindow
          .ok { sender with toVegasWindow := window.clamp }

/-- The first part of `OnCongestionEvent`; `latestRtt` is what
`rtt_stats_->latest_rtt()` returns. -/
def collectRtt (sender : VegasSender) (latestRtt eventTime : Nat) : VegasSender :=
  let vrtt := latestRtt + 1
  { sender with
    baseRttFilter := sender.baseRttFilter.update minFilter vrtt eventTime
    minRtt := if vrtt < sender.minRtt then vrtt else sender.minRtt
    rttCount := sender.rttCount + 1 }

/-- The last part of `OnCongestionEvent`. -/
def switchMode (sender : VegasSender) (before : Bool) : VegasSender :=
  if sender.inRecovery != before then
    if sender.inRecovery then
      { sender with vegasMode := false }
    else
      { sender with
        vegasMode := true
        begSendNext := sender.largestSentPacketNumber
        minRtt := infiniteUs
        rttCount := 0 }
  else
    sender

def onCongestionEvent (sender : VegasSender) (latestRtt eventTime : Nat)
    (ackedPackets lostPackets : List Nat) : Except VegasFault VegasSender := do
  let sender :=
    if ackedPackets.isEmpty then sender else sender.collectRtt latestRtt eventTime
  let before := sender.inRecovery
  let sender := lostPackets.foldl onPacketLost sender
  let sender ← ackedPackets.foldlM onPacketAcked sender
  pure (sender.switchMode before)

end VegasSender

/-- A sender with the history of its connection: the packets sent and those
acknowledged. -/
structure VegasConnection where
  sender : VegasSender
  sent : List Nat
  acked : List Nat
  /-- The time of the last congestion event. -/
  now : Nat

inductive VegasAction where
  | packetSent (packetNumber : Nat)
  | congestionEvent (latestRtt eventTime : Nat) (ackedPackets lostPackets : List Nat)
  | setInitialCongestionWindowInPackets (congestionWindow : Nat)

namespace VegasConnection

def create (initialTcpCongestionWindow maxTcpCongestionWindow : Nat) : VegasConnection :=
  ⟨.create initialTcpCongestionWindow maxTcpCongestionWindow, [], [], 0⟩

def perform (connection : VegasConnection) :
    VegasAction → Except VegasFault VegasConnection
  | .packetSent packetNumber => do
      let sender ← connection.sender.onPacketSent packetNumber
      pure { connection with sender := sender, sent := packetNumber :: connection.sent }
  | .congestionEvent latestRtt eventTime ackedPackets lostPackets => do
      let sender ←
        connection.sender.onCongestionEvent latestRtt eventTime ackedPackets lostPackets
      pure { connection with
        sender := sender
        acked := connection.acked ++ ackedPackets
        now := eventTime }
  | .setInitialCongestionWindowInPackets congestionWindow =>
      .ok { connection with
        sender := connection.sender.setInitialCongestionWindowInPackets congestionWindow }

theorem packetSent_eq_ok {connection next : VegasConnection} {packetNumber : Nat}
    (result : connection.perform (.packetSent packetNumber) = .ok next) :
    next = { connection with
      sender := { connection.sender with
        largestSentPacketNumber := some packetNumber
        begSendNext := some (connection.sender.begSendNext.getD packetNumber) }
      sent := packetNumber :: connection.sent } := by
  obtain ⟨sender, performed, shape⟩ := bind_eq_ok.mp result
  rw [← Except.ok.inj shape]
  unfold VegasSender.onPacketSent at performed
  rw [(check_eq_ok.mp performed).2]

theorem setInitialCongestionWindowInPackets_eq_ok {connection next : VegasConnection}
    {congestionWindow : Nat}
    (result : connection.perform (.setInitialCongestionWindowInPackets congestionWindow) =
      .ok next) :
    next = { connection with
      sender := { connection.sender with
        congestionWindow :=
          if connection.sender.inSlowStart then mulU64 congestionWindow kDefaultTCPMSS
          else connection.sender.congestionWindow } } := by
  rw [← Except.ok.inj result]
  unfold VegasSender.setInitialCongestionWindowInPackets
  split
  next => rfl
  next => rfl

theorem congestionEvent_eq_ok {connection next : VegasConnection} {latestRtt eventTime : Nat}
    {ackedPackets lostPackets : List Nat}
    (result : connection.perform
      (.congestionEvent latestRtt eventTime ackedPackets lostPackets) = .ok next) :
    connection.sender.onCongestionEvent latestRtt eventTime ackedPackets lostPackets =
        .ok next.sender ∧
      next.sent = connection.sent ∧ next.acked = connection.acked ++ ackedPackets ∧
      next.now = eventTime := by
  obtain ⟨sender, performed, shape⟩ := bind_eq_ok.mp result
  rw [← Except.ok.inj shape]
  exact ⟨performed, rfl, rfl, rfl⟩

theorem perform_eq_error {connection : VegasConnection} {action : VegasAction}
    {fault : VegasFault} (result : connection.perform action = .error fault) :
    fault = .packetNumberNotIncreasing ∨
      ∃ latestRtt eventTime ackedPackets lostPackets,
        action = .congestionEvent latestRtt eventTime ackedPackets lostPackets ∧
        connection.sender.onCongestionEvent latestRtt eventTime ackedPackets lostPackets =
          .error fault := by
  cases action with
  | packetSent packetNumber =>
      rcases bind_eq_error.mp result with failed | ⟨_, _, impossible⟩
      · unfold VegasSender.onPacketSent at failed
        exact Or.inl (check_eq_error.mp failed).2
      · cases impossible
  | congestionEvent latestRtt eventTime ackedPackets lostPackets =>
      rcases bind_eq_error.mp result with failed | ⟨_, _, impossible⟩
      · exact Or.inr ⟨_, _, _, _, rfl, failed⟩
      · cases impossible
  | setInitialCongestionWindowInPackets congestionWindow => cases result

/-- Packet numbers are valid and increase, and only packets that were sent are
acknowledged or lost. -/
def Enabled (connection : VegasConnection) : VegasAction → Prop
  | .packetSent packetNumber =>
      packetNumber < 2 ^ 64 - 1 ∧ ∀ earlier ∈ connection.sent, earlier < packetNumber
  | .congestionEvent latestRtt _ ackedPackets lostPackets =>
      latestRtt < infiniteUs ∧ (∀ packet ∈ ackedPackets, packet ∈ connection.sent) ∧
        ∀ packet ∈ lostPackets, packet ∈ connection.sent
  | .setInitialCongestionWindowInPackets _ => True

def Step : VegasConnection → VegasAction → VegasConnection → Prop :=
  Guarded Enabled perform

instance (connection : VegasConnection) (action : VegasAction) :
    Decidable (connection.Enabled action) :=
  match action with
  | .packetSent _ => inferInstanceAs (Decidable (_ ∧ ∀ earlier ∈ connection.sent, _))
  | .congestionEvent _ _ ackedPackets lostPackets =>
      inferInstanceAs (Decidable (_ ∧ (∀ packet ∈ ackedPackets, _) ∧
        ∀ packet ∈ lostPackets, _))
  | .setInitialCongestionWindowInPackets _ => inferInstanceAs (Decidable True)

end VegasConnection

end Ns3Quic.CongestionControl
