import Ns3Quic.CongestionControl.HybridSlowStart
import Ns3Quic.Lib.BinaryRounding
import Ns3Quic.Lib.Fold
import Ns3Quic.Lib.Run

/-!
# The Reno and Cubic sender

`TcpCubicSenderBytes` is what a client runs unless another algorithm is asked
for.  One class serves as Reno and as Cubic: it grows the window by a segment
per acknowledgement in slow start and by the rule of the algorithm afterwards,
cuts it at most once for all packets that were sent before the cut, and lets
`PrrSender` decide what is sent until they are acknowledged.

Single-precision arithmetic is computed as the machine does, and a conversion
to an integer type that is too small is a fault.  The function `cbrt` of the C
library is a parameter.
-/

namespace Ns3Quic.CongestionControl

open TransitionSystem LoopRules
open BinaryRounding (Scaled)

def kMaxSegmentSize : Nat := kDefaultTCPMSS

/-- The value of `num_connections_`. -/
def kDefaultNumConnections : Nat := 2

/-! ## Proportional rate reduction -/

structure PrrSender where
  bytesSentSinceLoss : Nat
  bytesDeliveredSinceLoss : Nat
  ackCountSinceLoss : Nat
  bytesInFlightBeforeLoss : Nat
  deriving DecidableEq

namespace PrrSender

def create : PrrSender := ⟨0, 0, 0, 0⟩

def onPacketSent (prr : PrrSender) (sentBytes : Nat) : PrrSender :=
  { prr with bytesSentSinceLoss := addU64 prr.bytesSentSinceLoss sentBytes }

def onPacketLost (priorInFlight : Nat) : PrrSender := ⟨0, 0, 0, priorInFlight⟩

def onPacketAcked (prr : PrrSender) (ackedBytes : Nat) : PrrSender :=
  { prr with
    bytesDeliveredSinceLoss := addU64 prr.bytesDeliveredSinceLoss ackedBytes
    ackCountSinceLoss := addU64 prr.ackCountSinceLoss 1 }

def canSend (prr : PrrSender) (congestionWindow bytesInFlight slowstartThreshold : Nat) : Bool :=
  if prr.bytesSentSinceLoss = 0 ∨ bytesInFlight < kMaxSegmentSize then
    true
  else if bytesInFlight < congestionWindow then
    decide (prr.bytesSentSinceLoss <
      addU64 prr.bytesDeliveredSinceLoss (mulU64 prr.ackCountSinceLoss kMaxSegmentSize))
  else
    decide (mulU64 prr.bytesSentSinceLoss prr.bytesInFlightBeforeLoss <
      mulU64 prr.bytesDeliveredSinceLoss slowstartThreshold)

end PrrSender

/-! ## Cubic -/

/-- The product of a window and the single precision number
`mantissa / 2 ^ 24`, truncated. -/
def scaleWindow (mantissa window : Nat) : Nat :=
  BinaryRounding.round 24 (BinaryRounding.round 24 window * mantissa) / 2 ^ 24

/-- `(num_connections_ - 1 + factor) / num_connections_`; the division is one by
two, and exact. -/
def emulatedMantissa (mantissa : Nat) : Nat :=
  BinaryRounding.round 24 ((kDefaultNumConnections - 1) * 2 ^ 24 + mantissa) /
    kDefaultNumConnections

/-- `0.7f`, the value of `kRenoBeta` and `kDefaultCubicBackoffFactor`. -/
def kBackoffMantissa : Nat := 11744051

/-- `0.85f`, the value of `kBetaLastMax`. -/
def kBetaLastMaxMantissa : Nat := 14260634

/-- `window * RenoBeta()` and `window * Beta()`. -/
def backoff (window : Nat) : Nat := scaleWindow (emulatedMantissa kBackoffMantissa) window

def alpha : Scaled :=
  let beta := emulatedMantissa kBackoffMantissa
  .div 24
    (.mul 24 (.ofNat 24 (3 * kDefaultNumConnections * kDefaultNumConnections))
      ⟨BinaryRounding.round 24 (2 ^ 24 - beta), 24⟩)
    ⟨BinaryRounding.round 24 (2 ^ 24 + beta), 24⟩

/-- `estimated + acked * (Alpha() * kDefaultTCPMSS) / estimated`, truncated. -/
def estimateTcpWindow (estimated acked : Nat) : Nat :=
  (Scaled.add 24 (.ofNat 24 estimated)
    (.div 24 (.mul 24 (.ofNat 24 acked) (.mul 24 alpha (.ofNat 24 kDefaultTCPMSS)))
      (.ofNat 24 estimated))).truncate

inductive CubicFault where
  /-- `QUICHE_DCHECK` in `OnPacketSent`: packet numbers increase. -/
  | packetNumberNotIncreasing
  /-- `QUICHE_DCHECK_LT(kDefaultTCPMSS, congestion_window_)`. -/
  | windowNotAboveSegment
  /-- `QUICHE_DCHECK(add_delta || origin_point_congestion_window_ > delta)`. -/
  | originNotAboveDelta
  /-- `QUICHE_DCHECK_LT(0u, estimated_tcp_congestion_window_)`. -/
  | estimatedWindowZero
  /-- A floating-point number is converted that the integer type cannot hold. -/
  | conversionOverflow
  deriving DecidableEq

structure CubicBytes where
  /-- Zero if it is not initialized. -/
  epoch : Nat
  lastMaxCongestionWindow : Nat
  ackedBytesCount : Nat
  estimatedTcpCongestionWindow : Nat
  originPointCongestionWindow : Nat
  timeToOriginPoint : Nat
  lastTargetCongestionWindow : Nat
  deriving DecidableEq

namespace CubicBytes

def kCubeCongestionWindowScale : Nat := 410

def kCubeScale : Nat := 40

def kCubeFactor : Nat := 2 ^ kCubeScale / kCubeCongestionWindowScale / kDefaultTCPMSS

/-- The constructor and `ResetCubicState`. -/
def initial : CubicBytes := ⟨0, 0, 0, 0, 0, 0, 0⟩

def onApplicationLimited (cubic : CubicBytes) : CubicBytes := { cubic with epoch := 0 }

def toInt (value : Nat) : Except CubicFault Nat :=
  if 2 ^ 31 ≤ value then .error .conversionOverflow else .ok value

def lastMaxAfterPacketLoss (cubic : CubicBytes) (current : Nat) : Except CubicFault Nat :=
  if addU64 current kDefaultTCPMSS < cubic.lastMaxCongestionWindow then
    toInt (scaleWindow (emulatedMantissa kBetaLastMaxMantissa) current)
  else
    .ok current

def congestionWindowAfterPacketLoss (cubic : CubicBytes) (current : Nat) :
    Except CubicFault (CubicBytes × Nat) := do
  let lastMaxCongestionWindow ← cubic.lastMaxAfterPacketLoss current
  let congestionWindow ← toInt (backoff current)
  pure ({ cubic with lastMaxCongestionWindow := lastMaxCongestionWindow, epoch := 0 },
    congestionWindow)

/-- The first acknowledgement after a loss.  The root is truncated to an
integer. -/
def startEpoch (cbrt : Nat → Nat) (cubic : CubicBytes)
    (ackedBytes current eventTime : Nat) : CubicBytes :=
  { cubic with
    epoch := eventTime
    ackedBytesCount := ackedBytes
    estimatedTcpCongestionWindow := current
    timeToOriginPoint :=
      if cubic.lastMaxCongestionWindow ≤ current then 0
      else cbrt (mulU64 kCubeFactor (cubic.lastMaxCongestionWindow - current))
    originPointCongestionWindow := max current cubic.lastMaxCongestionWindow }

/-- In fractions of `2 ^ (-10)` seconds. -/
def elapsedTime (cubic : CubicBytes) (delayMin eventTime : Nat) : Int :=
  Int.tdiv (((eventTime + delayMin : Nat) - (cubic.epoch : Int)) * 1024) 1000000

def deltaCongestionWindow (offset : Nat) : Nat :=
  kCubeCongestionWindowScale * offset * offset * offset * kDefaultTCPMSS % 2 ^ 64 / 2 ^ kCubeScale

def targetCongestionWindow (cubic : CubicBytes) (elapsedTime : Int) : Except CubicFault Nat :=
  let delta := deltaCongestionWindow (cubic.timeToOriginPoint - elapsedTime).natAbs
  if cubic.timeToOriginPoint < elapsedTime then
    .ok (addU64 cubic.originPointCongestionWindow delta)
  else if delta < cubic.originPointCongestionWindow then
    .ok (cubic.originPointCongestionWindow - delta)
  else
    .error .originNotAboveDelta

def countAcked (cbrt : Nat → Nat) (cubic : CubicBytes)
    (ackedBytes current eventTime : Nat) : CubicBytes :=
  if cubic.epoch = 0 then
    cubic.startEpoch cbrt ackedBytes current eventTime
  else
    { cubic with ackedBytesCount := addU64 cubic.ackedBytesCount ackedBytes }

/-- The cubic target is limited by half of the acknowledged bytes, and the
estimated TCP window is taken if it is larger. -/
def applyTarget (cubic : CubicBytes) (current target : Nat) :
    Except CubicFault (CubicBytes × Nat) :=
  let target := min target (addU64 current (cubic.ackedBytesCount / 2))
  if cubic.estimatedTcpCongestionWindow = 0 then
    .error .estimatedWindowZero
  else
    let estimated := estimateTcpWindow cubic.estimatedTcpCongestionWindow cubic.ackedBytesCount
    if 2 ^ 64 ≤ estimated then
      .error .conversionOverflow
    else
      .ok ({ cubic with
          estimatedTcpCongestionWindow := estimated
          ackedBytesCount := 0
          lastTargetCongestionWindow := target },
        max target estimated)

def congestionWindowAfterAck (cbrt : Nat → Nat) (cubic : CubicBytes)
    (ackedBytes current delayMin eventTime : Nat) : Except CubicFault (CubicBytes × Nat) := do
  let cubic := cubic.countAcked cbrt ackedBytes current eventTime
  let target ← cubic.targetCongestionWindow (cubic.elapsedTime delayMin eventTime)
  cubic.applyTarget current target

end CubicBytes

/-! ## The sender -/

structure CubicStats where
  slowstartPacketsSent : Nat
  slowstartPacketsLost : Nat
  slowstartBytesLost : Nat
  tcpLossEvents : Nat
  deriving DecidableEq

structure TcpCubicSenderBytes where
  hybridSlowStart : HybridSlowStart
  prr : PrrSender
  stats : CubicStats
  reno : Bool
  largestSentPacketNumber : Option Nat
  largestAckedPacketNumber : Option Nat
  largestSentAtLastCutback : Option Nat
  min4Mode : Bool
  lastCutbackExitedSlowstart : Bool
  slowStartLargeReduction : Bool
  noPrr : Bool
  cubic : CubicBytes
  numAckedPackets : Nat
  congestionWindow : Nat
  minCongestionWindow : Nat
  maxCongestionWindow : Nat
  slowstartThreshold : Nat
  initialTcpCongestionWindow : Nat
  initialMaxTcpCongestionWindow : Nat
  minSlowStartExitWindow : Nat
  deriving DecidableEq

structure ReportedPacket where
  packetNumber : Nat
  bytes : Nat
  deriving DecidableEq

/-- The arguments of `OnCongestionEvent` and what `rtt_stats_` returns during
the call. -/
structure CubicEvent where
  rttUpdated : Bool
  latestRtt : Nat
  minRtt : Nat
  priorInFlight : Nat
  eventTime : Nat
  ackedPackets : List ReportedPacket
  lostPackets : List ReportedPacket
  deriving DecidableEq

structure CubicOptions where
  iw03 : Bool
  iw10 : Bool
  iw20 : Bool
  iw50 : Bool
  min1 : Bool
  min4 : Bool
  sslr : Bool
  nprr : Bool
  deriving DecidableEq

namespace TcpCubicSenderBytes

def kMaxBurstBytes : Nat := 3 * kDefaultTCPMSS

def kDefaultMinimumCongestionWindow : Nat := 2 * kDefaultTCPMSS

/-- In packets. -/
def kMaxResumptionCongestionWindow : Nat := 200

def create (reno : Bool) (initialTcpCongestionWindow maxCongestionWindow : Nat) :
    TcpCubicSenderBytes where
  hybridSlowStart := .create
  prr := .create
  stats := ⟨0, 0, 0, 0⟩
  reno := reno
  largestSentPacketNumber := none
  largestAckedPacketNumber := none
  largestSentAtLastCutback := none
  min4Mode := false
  lastCutbackExitedSlowstart := false
  slowStartLargeReduction := false
  noPrr := false
  cubic := .initial
  numAckedPackets := 0
  congestionWindow := mulU64 initialTcpCongestionWindow kDefaultTCPMSS
  minCongestionWindow := kDefaultMinimumCongestionWindow
  maxCongestionWindow := mulU64 maxCongestionWindow kDefaultTCPMSS
  slowstartThreshold := mulU64 maxCongestionWindow kDefaultTCPMSS
  initialTcpCongestionWindow := mulU64 initialTcpCongestionWindow kDefaultTCPMSS
  initialMaxTcpCongestionWindow := mulU64 maxCongestionWindow kDefaultTCPMSS
  minSlowStartExitWindow := kDefaultMinimumCongestionWindow

def inSlowStart (sender : TcpCubicSenderBytes) : Bool :=
  decide (sender.congestionWindow < sender.slowstartThreshold)

def inRecovery (sender : TcpCubicSenderBytes) : Bool :=
  match sender.largestAckedPacketNumber, sender.largestSentAtLastCutback with
  | some acked, some cutback => decide (acked ≤ cutback)
  | _, _ => false

def isCwndLimited (sender : TcpCubicSenderBytes) (bytesInFlight : Nat) : Bool :=
  if sender.congestionWindow ≤ bytesInFlight then
    true
  else
    (sender.inSlowStart && decide (sender.congestionWindow / 2 < bytesInFlight)) ||
      decide (sender.congestionWindow - bytesInFlight ≤ kMaxBurstBytes)

def canSend (sender : TcpCubicSenderBytes) (bytesInFlight : Nat) : Bool :=
  if !sender.noPrr && sender.inRecovery then
    sender.prr.canSend sender.congestionWindow bytesInFlight sender.slowstartThreshold
  else
    decide (bytesInFlight < sender.congestionWindow) ||
      (sender.min4Mode && decide (bytesInFlight < 4 * kDefaultTCPMSS))

def onPacketSent (sender : TcpCubicSenderBytes) (packetNumber bytes : Nat)
    (retransmittable : Bool) : Except CubicFault TcpCubicSenderBytes :=
  let sender :=
    if sender.inSlowStart then
      { sender with stats.slowstartPacketsSent := sender.stats.slowstartPacketsSent + 1 }
    else
      sender
  if !retransmittable then
    .ok sender
  else
    let sender :=
      if sender.inRecovery then { sender with prr := sender.prr.onPacketSent bytes } else sender
    if sender.largestSentPacketNumber.any fun largest => decide (packetNumber ≤ largest) then
      .error .packetNumberNotIncreasing
    else
      .ok { sender with
        largestSentPacketNumber := some packetNumber
        hybridSlowStart := sender.hybridSlowStart.onPacketSent packetNumber }

/-- A loss of a packet that was sent before the last cutback. -/
def ignoreLoss (sender : TcpCubicSenderBytes) (lostBytes : Nat) : TcpCubicSenderBytes :=
  if sender.lastCutbackExitedSlowstart then
    let sender := { sender with
      stats.slowstartPacketsLost := sender.stats.slowstartPacketsLost + 1
      stats.slowstartBytesLost := sender.stats.slowstartBytesLost + lostBytes }
    if sender.slowStartLargeReduction then
      let congestionWindow :=
        max (subU64 sender.congestionWindow lostBytes) sender.minSlowStartExitWindow
      { sender with
        congestionWindow := congestionWindow, slowstartThreshold := congestionWindow }
    else
      sender
  else
    sender

/-- What a loss event does before the window is cut. -/
def noteLossEvent (sender : TcpCubicSenderBytes) (priorInFlight : Nat) : TcpCubicSenderBytes :=
  { sender with
    stats.tcpLossEvents := sender.stats.tcpLossEvents + 1
    stats.slowstartPacketsLost :=
      sender.stats.slowstartPacketsLost + (if sender.inSlowStart then 1 else 0)
    lastCutbackExitedSlowstart := sender.inSlowStart
    prr := if sender.noPrr then sender.prr else .onPacketLost priorInFlight }

def reduceWindow (sender : TcpCubicSenderBytes) : Except CubicFault TcpCubicSenderBytes :=
  if sender.slowStartLargeReduction && sender.inSlowStart then
    if sender.congestionWindow ≤ kDefaultTCPMSS then
      .error .windowNotAboveSegment
    else
      .ok { sender with
        minSlowStartExitWindow :=
          if mulU64 2 sender.initialTcpCongestionWindow ≤ sender.congestionWindow then
            sender.congestionWindow / 2
          else
            sender.minSlowStartExitWindow
        congestionWindow := sender.congestionWindow - kDefaultTCPMSS }
  else if sender.reno then
    .ok { sender with congestionWindow := backoff sender.congestionWindow }
  else do
    let (cubic, congestionWindow) ←
      sender.cubic.congestionWindowAfterPacketLoss sender.congestionWindow
    pure { sender with cubic := cubic, congestionWindow := congestionWindow }

/-- The last part of `OnPacketLost`. -/
def finishCutback (sender : TcpCubicSenderBytes) : TcpCubicSenderBytes :=
  let congestionWindow := max sender.congestionWindow sender.minCongestionWindow
  { sender with
    congestionWindow := congestionWindow
    slowstartThreshold := congestionWindow
    largestSentAtLastCutback := sender.largestSentPacketNumber
    numAckedPackets := 0 }

def onPacketLost (priorInFlight : Nat) (sender : TcpCubicSenderBytes) (packet : ReportedPacket) :
    Except CubicFault TcpCubicSenderBytes :=
  if sender.largestSentAtLastCutback.any
      fun cutback => decide (packet.packetNumber ≤ cutback) then
    .ok (sender.ignoreLoss packet.bytes)
  else do
    let sender ← (sender.noteLossEvent priorInFlight).reduceWindow
    pure sender.finishCutback

def increaseAsReno (sender : TcpCubicSenderBytes) : TcpCubicSenderBytes :=
  let numAckedPackets := addU64 sender.numAckedPackets 1
  if sender.congestionWindow / kDefaultTCPMSS ≤
      mulU64 numAckedPackets kDefaultNumConnections then
    { sender with
      congestionWindow := addU64 sender.congestionWindow kDefaultTCPMSS
      numAckedPackets := 0 }
  else
    { sender with numAckedPackets := numAckedPackets }

section Acknowledgements

variable (cbrt : Nat → Nat)

def increaseAsCubic (sender : TcpCubicSenderBytes) (ackedBytes minRtt eventTime : Nat) :
    Except CubicFault TcpCubicSenderBytes := do
  let (cubic, congestionWindow) ← sender.cubic.congestionWindowAfterAck cbrt ackedBytes
    sender.congestionWindow minRtt eventTime
  pure { sender with
    cubic := cubic
    congestionWindow := min sender.maxCongestionWindow congestionWindow }

def maybeIncreaseCwnd (sender : TcpCubicSenderBytes)
    (ackedBytes priorInFlight minRtt eventTime : Nat) : Except CubicFault TcpCubicSenderBytes :=
  if !sender.isCwndLimited priorInFlight then
    .ok { sender with cubic := sender.cubic.onApplicationLimited }
  else if sender.maxCongestionWindow ≤ sender.congestionWindow then
    .ok sender
  else if sender.inSlowStart then
    .ok { sender with congestionWindow := addU64 sender.congestionWindow kDefaultTCPMSS }
  else if sender.reno then
    .ok sender.increaseAsReno
  else
    sender.increaseAsCubic cbrt ackedBytes minRtt eventTime

/-- The last part of `OnPacketAcked`. -/
def endRound (sender : TcpCubicSenderBytes) (ackedPacketNumber : Nat) : TcpCubicSenderBytes :=
  if sender.inSlowStart then
    { sender with hybridSlowStart := sender.hybridSlowStart.onPacketAcked ackedPacketNumber }
  else
    sender

def onPacketAcked (event : CubicEvent) (sender : TcpCubicSenderBytes) (packet : ReportedPacket) :
    Except CubicFault TcpCubicSenderBytes :=
  let sender := { sender with
    largestAckedPacketNumber :=
      updateMax sender.largestAckedPacketNumber packet.packetNumber }
  if sender.inRecovery then
    if sender.noPrr then
      .ok sender
    else
      .ok { sender with prr := sender.prr.onPacketAcked packet.bytes }
  else do
    let sender ← sender.maybeIncreaseCwnd cbrt packet.bytes event.priorInFlight
      event.minRtt event.eventTime
    pure (sender.endRound packet.packetNumber)

/-- The first part of `OnCongestionEvent`. -/
def maybeExitSlowstart (sender : TcpCubicSenderBytes) (event : CubicEvent) :
    TcpCubicSenderBytes :=
  if event.rttUpdated && sender.inSlowStart then
    let (hybridSlowStart, exits) := sender.hybridSlowStart.shouldExitSlowStart event.latestRtt
      event.minRtt (sender.congestionWindow / kDefaultTCPMSS)
    { sender with
      hybridSlowStart := hybridSlowStart
      slowstartThreshold :=
        if exits then sender.congestionWindow else sender.slowstartThreshold }
  else
    sender

def onCongestionEvent (sender : TcpCubicSenderBytes) (event : CubicEvent) :
    Except CubicFault TcpCubicSenderBytes := do
  let sender ← event.lostPackets.foldlM (onPacketLost event.priorInFlight)
    (sender.maybeExitSlowstart event)
  event.ackedPackets.foldlM (onPacketAcked cbrt event) sender

end Acknowledgements

def onRetransmissionTimeout (sender : TcpCubicSenderBytes) (packetsRetransmitted : Bool) :
    TcpCubicSenderBytes :=
  if packetsRetransmitted then
    { sender with
      largestSentAtLastCutback := none
      hybridSlowStart := sender.hybridSlowStart.restart
      cubic := .initial
      slowstartThreshold := sender.congestionWindow / 2
      congestionWindow := sender.minCongestionWindow }
  else
    { sender with largestSentAtLastCutback := none }

def onConnectionMigration (sender : TcpCubicSenderBytes) : TcpCubicSenderBytes :=
  { sender with
    hybridSlowStart := sender.hybridSlowStart.restart
    prr := .create
    largestSentPacketNumber := none
    largestAckedPacketNumber := none
    largestSentAtLastCutback := none
    lastCutbackExitedSlowstart := false
    cubic := .initial
    numAckedPackets := 0
    congestionWindow := sender.initialTcpCongestionWindow
    maxCongestionWindow := sender.initialMaxTcpCongestionWindow
    slowstartThreshold := sender.initialMaxTcpCongestionWindow }

def setInitialCongestionWindowInPackets (congestionWindow : Nat) (sender : TcpCubicSenderBytes) :
    TcpCubicSenderBytes :=
  { sender with congestionWindow := mulU64 congestionWindow kDefaultTCPMSS }

def setMinCongestionWindowInPackets (congestionWindow : Nat) (sender : TcpCubicSenderBytes) :
    TcpCubicSenderBytes :=
  { sender with minCongestionWindow := mulU64 congestionWindow kDefaultTCPMSS }

def whenSet (option : Bool) (change : TcpCubicSenderBytes → TcpCubicSenderBytes)
    (sender : TcpCubicSenderBytes) : TcpCubicSenderBytes :=
  if option then change sender else sender

/-- The options that `SetFromConfig` leaves to the connection if the flag
`quic_unified_iw_options` is set. -/
def setWindowsFromConfig (sender : TcpCubicSenderBytes) (options : CubicOptions) :
    TcpCubicSenderBytes :=
  let sender := whenSet options.iw03 (setInitialCongestionWindowInPackets 3) sender
  let sender := whenSet options.iw10 (setInitialCongestionWindowInPackets 10) sender
  let sender := whenSet options.iw20 (setInitialCongestionWindowInPackets 20) sender
  let sender := whenSet options.iw50 (setInitialCongestionWindowInPackets 50) sender
  whenSet options.min1 (setMinCongestionWindowInPackets 1) sender

/-- `SetFromConfig` of a server. -/
def setFromConfig (sender : TcpCubicSenderBytes) (options : CubicOptions)
    (unifiedIwOptions : Bool) : TcpCubicSenderBytes :=
  let sender := if unifiedIwOptions then sender else sender.setWindowsFromConfig options
  let sender := whenSet options.min4
    (fun sender => setMinCongestionWindowInPackets 1 { sender with min4Mode := true }) sender
  let sender :=
    whenSet options.sslr (fun sender => { sender with slowStartLargeReduction := true }) sender
  whenSet options.nprr (fun sender => { sender with noPrr := true }) sender

/-- `AdjustNetworkParameters`, with the bandwidth in bits per second. -/
def adjustNetworkParameters (sender : TcpCubicSenderBytes) (bandwidth rtt : Nat) :
    TcpCubicSenderBytes :=
  if bandwidth = 0 ∨ rtt = 0 then
    sender
  else
    { sender with
      congestionWindow := max sender.minCongestionWindow
        (min (mulU64 bandwidth rtt / 8 / 1000000)
          (kMaxResumptionCongestionWindow * kDefaultTCPMSS)) }

end TcpCubicSenderBytes

inductive CubicAction where
  | packetSent (packetNumber bytes : Nat) (retransmittable : Bool)
  | congestionEvent (event : CubicEvent)
  | retransmissionTimeout (packetsRetransmitted : Bool)
  | connectionMigration
  | setInitialCongestionWindowInPackets (congestionWindow : Nat)
  | setFromConfig (options : CubicOptions) (unifiedIwOptions : Bool)
  | adjustNetworkParameters (bandwidth rtt : Nat)
  deriving DecidableEq

namespace TcpCubicSenderBytes

def perform (cbrt : Nat → Nat) (sender : TcpCubicSenderBytes) :
    CubicAction → Except CubicFault TcpCubicSenderBytes
  | .packetSent packetNumber bytes retransmittable =>
      sender.onPacketSent packetNumber bytes retransmittable
  | .congestionEvent event => sender.onCongestionEvent cbrt event
  | .retransmissionTimeout packetsRetransmitted =>
      .ok (sender.onRetransmissionTimeout packetsRetransmitted)
  | .connectionMigration => .ok sender.onConnectionMigration
  | .setInitialCongestionWindowInPackets congestionWindow =>
      .ok (sender.setInitialCongestionWindowInPackets congestionWindow)
  | .setFromConfig options unifiedIwOptions =>
      .ok (sender.setFromConfig options unifiedIwOptions)
  | .adjustNetworkParameters bandwidth rtt => .ok (sender.adjustNetworkParameters bandwidth rtt)

end TcpCubicSenderBytes

/-! ## The size of a cut -/

theorem emulatedMantissa_backoff : emulatedMantissa kBackoffMantissa = 14260634 := by
  decide +kernel

theorem backoff_bounds (window : Nat) :
    100 * backoff window ≤ 86 * window ∧ 84 * window ≤ 100 * backoff window + 100 := by
  unfold backoff scaleWindow
  rw [emulatedMantissa_backoff]
  have product := @BinaryRounding.round_relative 24 (by decide)
    (BinaryRounding.round 24 window * 14260634)
  have converted := @BinaryRounding.round_relative 24 (by decide) window
  generalize BinaryRounding.round 24 (BinaryRounding.round 24 window * 14260634) = result at *
  generalize BinaryRounding.round 24 window = single at *
  omega

end Ns3Quic.CongestionControl
