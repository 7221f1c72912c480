import Ns3Quic.CongestionControl.WindowedFilter
import Ns3Quic.Lib.Fold
import Ns3Quic.Lib.Run

/-!
# The Copa sender

`CopaSender` compares the rate it sends at with a target rate computed from
the queueing delay, and moves its window towards the target.  The speed of the
movement, the velocity, doubles while the window keeps moving in one
direction.

Quotients of doubles are read as exact.  A time of zero is an unset time.
Failed checks and exceptions are faults, and so are conversions of a double
that the integer type cannot represent.
-/

namespace Ns3Quic.CongestionControl

open TransitionSystem LoopRules

inductive CopaFault where
  /-- The first `QUICHE_CHECK(0)`: the queueing delay is negative. -/
  | delayNegative
  /-- The second `QUICHE_CHECK(0)`. -/
  | rttStandingZero
  /-- A double is converted that is infinite or too large. -/
  | conversionOverflow
  /-- `std::runtime_error("Overflow bytes in flight")`. -/
  | overflowBytesInFlight
  /-- `std::runtime_error("Underflow bytes in flight")`. -/
  | underflowBytesInFlight
  /-- `QUICHE_DCHECK` in `OnPacketSent`: packet numbers increase. -/
  | packetNumberNotIncreasing
  deriving DecidableEq

def addAndCheckOverflow (value toAdd : Nat) : Except CopaFault Nat :=
  if 2 ^ 64 - 1 - toAdd < value then
    .error .overflowBytesInFlight
  else
    .ok (value + toAdd)

def subtractAndCheckUnderflow (value toSub : Nat) : Except CopaFault Nat :=
  if value < toSub then
    .error .underflowBytesInFlight
  else
    .ok (value - toSub)

inductive Direction where
  | none
  | up
  | down
  deriving DecidableEq

structure VelocityState where
  velocity : Nat
  direction : Direction
  numTimesDirectionSame : Nat
  /-- Read only after `lastCwndRecordTime` has been set together with it. -/
  lastRecordedCwndBytes : Nat
  lastCwndRecordTime : Nat
  deriving DecidableEq

namespace VelocityState

def initial : VelocityState := ⟨1, .none, 0, 0, 0⟩

def newDirection (state : VelocityState) (congestionWindow : Nat) : Direction :=
  if state.lastRecordedCwndBytes < congestionWindow then .up else .down

def checkAndUpdateDirection (state : VelocityState) (congestionWindow smoothedRtt ackTime : Nat) :
    VelocityState :=
  if state.lastCwndRecordTime = 0 then
    { state with lastCwndRecordTime := ackTime, lastRecordedCwndBytes := congestionWindow }
  else if state.lastCwndRecordTime + smoothedRtt ≤ ackTime then
    let newDirection := state.newDirection congestionWindow
    if newDirection ≠ state.direction then
      ⟨1, newDirection, 0, congestionWindow, ackTime⟩
    else
      let numTimesDirectionSame := addU64 state.numTimesDirectionSame 1
      let velocity :=
        if 3 ≤ numTimesDirectionSame then mulU64 2 state.velocity else state.velocity
      ⟨velocity, newDirection, numTimesDirectionSame, congestionWindow, ackTime⟩
  else
    state

def changeDirection (state : VelocityState) (newDirection : Direction)
    (congestionWindow ackTime : Nat) : VelocityState :=
  if state.direction = newDirection then
    state
  else
    ⟨1, newDirection, 0, congestionWindow, ackTime⟩

/-- The guarded call of `ChangeDirection` before the window is moved. -/
def turn (state : VelocityState) (newDirection : Direction) (congestionWindow ackTime : Nat) :
    VelocityState :=
  if state.direction ≠ newDirection ∧ 1 < state.velocity then
    state.changeDirection newDirection congestionWindow ackTime
  else
    state

end VelocityState

structure CopaSender where
  largestSentPacketNumber : Option Nat
  largestAckedPacketNumber : Option Nat
  largestSentAtLastCutback : Option Nat
  congestionWindow : Nat
  maxCongestionWindow : Nat
  isSlowStart : Bool
  lastCwndDoubleTime : Nat
  minRttFilter : WindowedFilter Nat
  standingRttFilter : WindowedFilter Nat
  velocityState : VelocityState
  deriving DecidableEq

/-- The arguments of `OnCongestionEvent` and what `rtt_stats_` returns during
the call. -/
structure CopaEvent where
  eventTime : Nat
  latestRtt : Nat
  smoothedRtt : Nat
  ackedPackets : List Nat
  lostPackets : List Nat
  deriving DecidableEq

namespace CopaSender

/-- `kDefaultMinimumCongestionWindow`, the value of `min_congestion_window_`. -/
def minCongestionWindow : Nat := 4 * kDefaultTCPMSS

/-- `kMinRTTWindowLength`: ten seconds. -/
def minRttWindowLength : Nat := 10000000

def create (initialTcpCongestionWindow maxTcpCongestionWindow : Nat) : CopaSender where
  largestSentPacketNumber := none
  largestAckedPacketNumber := none
  largestSentAtLastCutback := none
  congestionWindow := mulU64 initialTcpCongestionWindow kDefaultTCPMSS
  maxCongestionWindow := mulU64 maxTcpCongestionWindow kDefaultTCPMSS
  isSlowStart := true
  lastCwndDoubleTime := 0
  minRttFilter := .create minRttWindowLength 0 0
  standingRttFilter := .create 100000 0 0
  velocityState := .initial

def setInitialCongestionWindowInPackets (sender : CopaSender) (congestionWindow : Nat) :
    CopaSender :=
  if sender.isSlowStart then
    { sender with congestionWindow := mulU64 congestionWindow kDefaultTCPMSS }
  else
    sender

def onPacketSent (sender : CopaSender) (packetNumber : Nat) : Except CopaFault CopaSender :=
  if sender.largestSentPacketNumber.any fun largest => decide (packetNumber ≤ largest) then
    .error .packetNumberNotIncreasing
  else
    .ok { sender with largestSentPacketNumber := some packetNumber }

def onPacketLost (sender : CopaSender) (packetNumber : Nat) : CopaSender :=
  if sender.largestSentAtLastCutback.any fun cutback => decide (packetNumber ≤ cutback) then
    sender
  else
    { sender with largestSentAtLastCutback := sender.largestSentPacketNumber }

/-- The first part of `OnPacketAcked`: the packet numbers and both filters. -/
def observe (sender : CopaSender) (event : CopaEvent) : CopaSender :=
  { sender with
    largestAckedPacketNumber :=
      event.ackedPackets.foldl updateMax sender.largestAckedPacketNumber
    minRttFilter := sender.minRttFilter.update minFilter event.latestRtt event.eventTime
    standingRttFilter :=
      { sender.standingRttFilter with windowLength := event.smoothedRtt / 2 }.update
        minFilter event.latestRtt event.eventTime }

/-- `targetRate`; `latencyFactor_` is one half. -/
def targetRate (delayInMicroSec : Nat) : Nat :=
  2 * (kDefaultTCPMSS * 1000000) / delayInMicroSec

def currentRate (congestionWindow rttStanding : Nat) : Nat :=
  congestionWindow * 1000000 / rttStanding

/-- `increaseCwnd`, computed from filters that have seen the latest sample. -/
def increaseCwnd (sender : CopaSender) (latestRtt : Nat) : Except CopaFault Bool :=
  let rttMin := sender.minRttFilter.getBest
  let rttStanding := sender.standingRttFilter.getBest
  if latestRtt < rttMin then
    .error .delayNegative
  else if rttStanding = 0 then
    .error .rttStandingZero
  else if latestRtt - rttMin = 0 then
    .ok true
  else if 2 ^ 63 ≤ currentRate sender.congestionWindow rttStanding then
    .error .conversionOverflow
  else
    .ok (decide (currentRate sender.congestionWindow rttStanding ≤
      targetRate (latestRtt - rttMin)))

/-- `acked_packets.size() * kDefaultTCPMSS * kDefaultTCPMSS * velocity`. -/
def ackedProduct (ackedCount velocity : Nat) : Nat :=
  mulU64 (mulU64 (mulU64 ackedCount kDefaultTCPMSS) kDefaultTCPMSS) velocity

/-- `addition` and `reduction`. -/
def windowChange (congestionWindow ackedCount velocity : Nat) : Except CopaFault Nat :=
  let change := 2 * ackedProduct ackedCount velocity / congestionWindow
  if congestionWindow = 0 ∨ 2 ^ 64 ≤ change then
    .error .conversionOverflow
  else
    .ok change

def slowStart (sender : CopaSender) (event : CopaEvent) : Except CopaFault CopaSender :=
  if sender.lastCwndDoubleTime = 0 then
    .ok { sender with lastCwndDoubleTime := event.eventTime }
  else if sender.lastCwndDoubleTime + event.smoothedRtt < event.eventTime then do
    let congestionWindow ← addAndCheckOverflow sender.congestionWindow sender.congestionWindow
    pure { sender with
      congestionWindow := congestionWindow
      lastCwndDoubleTime := event.eventTime }
  else
    .ok sender

def increase (sender : CopaSender) (event : CopaEvent) : Except CopaFault CopaSender := do
  let velocityState :=
    sender.velocityState.turn .up sender.congestionWindow event.eventTime
  let addition ←
    windowChange sender.congestionWindow event.ackedPackets.length velocityState.velocity
  let congestionWindow ← addAndCheckOverflow sender.congestionWindow addition
  pure { sender with congestionWindow := congestionWindow, velocityState := velocityState }

def decrease (sender : CopaSender) (event : CopaEvent) : Except CopaFault CopaSender := do
  let velocityState :=
    sender.velocityState.turn .down sender.congestionWindow event.eventTime
  let reduction ←
    windowChange sender.congestionWindow event.ackedPackets.length velocityState.velocity
  let congestionWindow ← subtractAndCheckUnderflow sender.congestionWindow
    (min reduction (subU64 sender.congestionWindow minCongestionWindow))
  pure { sender with
    congestionWindow := congestionWindow
    velocityState := velocityState
    isSlowStart := false }

def checkDirection (sender : CopaSender) (event : CopaEvent) : CopaSender :=
  { sender with
    velocityState := sender.velocityState.checkAndUpdateDirection sender.congestionWindow
      event.smoothedRtt event.eventTime }

def onPacketAcked (sender : CopaSender) (event : CopaEvent) : Except CopaFault CopaSender := do
  let sender := sender.observe event
  let increaseCwnd ← sender.increaseCwnd event.latestRtt
  let sender :=
    if increaseCwnd && sender.isSlowStart then sender else sender.checkDirection event
  if increaseCwnd then
    if sender.isSlowStart then
      sender.slowStart event
    else
      sender.increase event
  else
    sender.decrease event

def onCongestionEvent (sender : CopaSender) (event : CopaEvent) :
    Except CopaFault CopaSender :=
  (event.lostPackets.foldl onPacketLost sender).onPacketAcked event

end CopaSender

inductive CopaAction where
  | packetSent (packetNumber : Nat)
  | congestionEvent (event : CopaEvent)
  | setInitialCongestionWindowInPackets (congestionWindow : Nat)
  deriving DecidableEq

namespace CopaSender

def perform (sender : CopaSender) : CopaAction → Except CopaFault CopaSender
  | .packetSent packetNumber => sender.onPacketSent packetNumber
  | .congestionEvent event => sender.onCongestionEvent event
  | .setInitialCongestionWindowInPackets congestionWindow =>
      .ok (sender.setInitialCongestionWindowInPackets congestionWindow)

def Step : CopaSender → CopaAction → CopaSender → Prop :=
  Guarded (fun _ _ => True) perform

theorem onPacketSent_eq_ok {sender next : CopaSender} {packetNumber : Nat}
    (result : sender.onPacketSent packetNumber = .ok next) :
    next = { sender with largestSentPacketNumber := some packetNumber } := by
  unfold onPacketSent at result
  exact (check_eq_ok.mp result).2

theorem setInitialCongestionWindowInPackets_eq_ok {sender next : CopaSender}
    {congestionWindow : Nat}
    (result : sender.perform (.setInitialCongestionWindowInPackets congestionWindow) =
      .ok next) :
    next = { sender with
      congestionWindow :=
        if sender.isSlowStart then mulU64 congestionWindow kDefaultTCPMSS
        else sender.congestionWindow } := by
  rw [← Except.ok.inj result]
  unfold setInitialCongestionWindowInPackets
  split
  next => rfl
  next => rfl

def observed (sender : CopaSender) (event : CopaEvent) : CopaSender :=
  (event.lostPackets.foldl onPacketLost sender).observe event

def decision (sender : CopaSender) (event : CopaEvent) : Except CopaFault Bool :=
  (sender.observed event).increaseCwnd event.latestRtt

/-- The velocity state with which an event moves the window outside slow
start. -/
def steer (sender : CopaSender) (event : CopaEvent) (direction : Direction) : VelocityState :=
  (sender.velocityState.checkAndUpdateDirection sender.congestionWindow event.smoothedRtt
    event.eventTime).turn direction sender.congestionWindow event.eventTime

/-- In slow start, more than a smoothed round-trip time has passed since the
last doubling. -/
def DoublingDue (sender : CopaSender) (event : CopaEvent) : Prop :=
  sender.lastCwndDoubleTime ≠ 0 ∧
    sender.lastCwndDoubleTime + event.smoothedRtt < event.eventTime

instance (sender : CopaSender) (event : CopaEvent) : Decidable (sender.DoublingDue event) :=
  inferInstanceAs (Decidable (_ ∧ _))

theorem foldl_onPacketLost_eq (sender : CopaSender) (lostPackets : List Nat) :
    ∃ cutback, lostPackets.foldl onPacketLost sender =
      { sender with largestSentAtLastCutback := cutback } := by
  induction lostPackets generalizing sender with
  | nil => exact ⟨_, rfl⟩
  | cons packet rest inductionHypothesis =>
      rw [List.foldl_cons]
      obtain ⟨cutback, shape⟩ := inductionHypothesis (sender.onPacketLost packet)
      refine ⟨cutback, shape.trans ?_⟩
      unfold onPacketLost
      split <;> rfl

theorem observed_frame (sender : CopaSender) (event : CopaEvent) :
    (sender.observed event).congestionWindow = sender.congestionWindow ∧
      (sender.observed event).maxCongestionWindow = sender.maxCongestionWindow ∧
      (sender.observed event).isSlowStart = sender.isSlowStart ∧
      (sender.observed event).lastCwndDoubleTime = sender.lastCwndDoubleTime ∧
      (sender.observed event).velocityState = sender.velocityState := by
  obtain ⟨cutback, shape⟩ := sender.foldl_onPacketLost_eq event.lostPackets
  unfold observed
  rw [shape]
  exact ⟨rfl, rfl, rfl, rfl, rfl⟩

@[simp]
theorem congestionWindow_observed (sender : CopaSender) (event : CopaEvent) :
    (sender.observed event).congestionWindow = sender.congestionWindow :=
  (sender.observed_frame event).1

@[simp]
theorem maxCongestionWindow_observed (sender : CopaSender) (event : CopaEvent) :
    (sender.observed event).maxCongestionWindow = sender.maxCongestionWindow :=
  (sender.observed_frame event).2.1

@[simp]
theorem isSlowStart_observed (sender : CopaSender) (event : CopaEvent) :
    (sender.observed event).isSlowStart = sender.isSlowStart :=
  (sender.observed_frame event).2.2.1

@[simp]
theorem lastCwndDoubleTime_observed (sender : CopaSender) (event : CopaEvent) :
    (sender.observed event).lastCwndDoubleTime = sender.lastCwndDoubleTime :=
  (sender.observed_frame event).2.2.2.1

@[simp]
theorem velocityState_observed (sender : CopaSender) (event : CopaEvent) :
    (sender.observed event).velocityState = sender.velocityState :=
  (sender.observed_frame event).2.2.2.2

theorem congestionWindow_checkDirection (sender : CopaSender) (event : CopaEvent) :
    ((sender.observed event).checkDirection event).congestionWindow = sender.congestionWindow :=
  sender.congestionWindow_observed event

theorem steer_observed (sender : CopaSender) (event : CopaEvent) (direction : Direction) :
    ((sender.observed event).checkDirection event).velocityState.turn direction
      sender.congestionWindow event.eventTime = sender.steer event direction := by
  simp [checkDirection, steer]

end CopaSender

theorem addAndCheckOverflow_eq_ok {value toAdd result : Nat} :
    addAndCheckOverflow value toAdd = .ok result ↔
      value ≤ 2 ^ 64 - 1 - toAdd ∧ result = value + toAdd := by
  unfold addAndCheckOverflow
  rw [check_eq_ok, not_lt]

theorem addAndCheckOverflow_eq_error {value toAdd : Nat} {fault : CopaFault} :
    addAndCheckOverflow value toAdd = .error fault ↔
      2 ^ 64 - 1 - toAdd < value ∧ fault = .overflowBytesInFlight := by
  unfold addAndCheckOverflow
  exact check_eq_error

theorem subtractAndCheckUnderflow_eq_ok {value toSub result : Nat} :
    subtractAndCheckUnderflow value toSub = .ok result ↔
      toSub ≤ value ∧ result = value - toSub := by
  unfold subtractAndCheckUnderflow
  rw [check_eq_ok, not_lt]

theorem subtractAndCheckUnderflow_eq_error {value toSub : Nat} {fault : CopaFault} :
    subtractAndCheckUnderflow value toSub = .error fault ↔
      value < toSub ∧ fault = .underflowBytesInFlight := by
  unfold subtractAndCheckUnderflow
  exact check_eq_error

namespace CopaSender

theorem ackedProduct_eq_mod (ackedCount velocity : Nat) :
    ackedProduct ackedCount velocity =
      ackedCount * kDefaultTCPMSS * kDefaultTCPMSS * velocity % 2 ^ 64 := by
  simp only [ackedProduct, mulU64, Nat.mod_mul_mod]

theorem windowChange_eq_ok {congestionWindow ackedCount velocity change : Nat} :
    windowChange congestionWindow ackedCount velocity = .ok change ↔
      congestionWindow ≠ 0 ∧ change < 2 ^ 64 ∧
        change = 2 * ackedProduct ackedCount velocity / congestionWindow := by
  unfold windowChange
  dsimp only
  split
  next failed =>
    constructor
    · intro impossible
      cases impossible
    · intro shape
      omega
  next fits =>
    rw [Except.ok.injEq]
    refine ⟨fun shape => ?_, fun shape => shape.2.2.symm⟩
    omega

theorem windowChange_eq_error {congestionWindow ackedCount velocity : Nat} {fault : CopaFault}
    (failed : windowChange congestionWindow ackedCount velocity = .error fault) :
    fault = .conversionOverflow := by
  unfold windowChange at failed
  exact (check_eq_error.mp failed).2

inductive EventStep (sender : CopaSender) (event : CopaEvent) : CopaSender → Prop where
  /-- The first increase decision in slow start starts the doubling clock. -/
  | armed (decided : sender.decision event = .ok true) (slow : sender.isSlowStart = true)
      (unset : sender.lastCwndDoubleTime = 0) :
      EventStep sender event
        { sender.observed event with lastCwndDoubleTime := event.eventTime }
  | doubled (decided : sender.decision event = .ok true) (slow : sender.isSlowStart = true)
      (due : sender.DoublingDue event)
      (fits : sender.congestionWindow ≤ 2 ^ 64 - 1 - sender.congestionWindow) :
      EventStep sender event
        { sender.observed event with
          congestionWindow := sender.congestionWindow + sender.congestionWindow
          lastCwndDoubleTime := event.eventTime }
  | waiting (decided : sender.decision event = .ok true) (slow : sender.isSlowStart = true)
      (early : ¬ sender.DoublingDue event) :
      EventStep sender event (sender.observed event)
  | increased (change : Nat) (decided : sender.decision event = .ok true)
      (avoidance : sender.isSlowStart = false)
      (computed : windowChange sender.congestionWindow event.ackedPackets.length
        (sender.steer event .up).velocity = .ok change)
      (fits : sender.congestionWindow ≤ 2 ^ 64 - 1 - change) :
      EventStep sender event
        { sender.observed event with
          congestionWindow := sender.congestionWindow + change
          velocityState := sender.steer event .up }
  | decreased (change : Nat) (decided : sender.decision event = .ok false)
      (computed : windowChange sender.congestionWindow event.ackedPackets.length
        (sender.steer event .down).velocity = .ok change)
      (fits : min change (subU64 sender.congestionWindow minCongestionWindow) ≤
        sender.congestionWindow) :
      EventStep sender event
        { sender.observed event with
          congestionWindow := sender.congestionWindow -
            min change (subU64 sender.congestionWindow minCongestionWindow)
          velocityState := sender.steer event .down
          isSlowStart := false }

theorem onPacketAcked_eq (sender : CopaSender) (event : CopaEvent) :
    sender.onPacketAcked event =
      (sender.observe event).increaseCwnd event.latestRtt >>= fun increaseCwnd =>
        if increaseCwnd then
          if (sender.observe event).isSlowStart then
            (sender.observe event).slowStart event
          else
            ((sender.observe event).checkDirection event).increase event
        else
          ((sender.observe event).checkDirection event).decrease event := by
  unfold onPacketAcked
  generalize sender.observe event = observed
  apply bind_congr
  intro increaseCwnd
  cases increaseCwnd with
  | false => rfl
  | true =>
      cases slow : observed.isSlowStart with
      | false => simp [slow, checkDirection]
      | true => simp [slow]

/-- An event is its decision followed by one of three movements. -/
theorem onCongestionEvent_eq (sender : CopaSender) (event : CopaEvent) :
    sender.onCongestionEvent event = sender.decision event >>= fun increaseCwnd =>
      if increaseCwnd then
        if sender.isSlowStart then
          (sender.observed event).slowStart event
        else
          ((sender.observed event).checkDirection event).increase event
      else
        ((sender.observed event).checkDirection event).decrease event := by
  rw [← sender.isSlowStart_observed event]
  exact onPacketAcked_eq _ event

theorem EventStep.of_slowStart {sender next : CopaSender} {event : CopaEvent}
    (decided : sender.decision event = .ok true) (slow : sender.isSlowStart = true)
    (result : (sender.observed event).slowStart event = .ok next) :
    EventStep sender event next := by
  unfold CopaSender.slowStart at result
  rw [lastCwndDoubleTime_observed] at result
  split at result
  next unset =>
    rw [← Except.ok.inj result]
    exact .armed decided slow unset
  next set =>
    split at result
    next due =>
      obtain ⟨congestionWindow, added, shape⟩ := bind_eq_ok.mp result
      rw [congestionWindow_observed] at added
      obtain ⟨fits, equality⟩ := addAndCheckOverflow_eq_ok.mp added
      rw [← Except.ok.inj shape, equality]
      exact .doubled decided slow ⟨set, due⟩ fits
    next early =>
      rw [← Except.ok.inj result]
      exact .waiting decided slow fun due => early due.2

theorem EventStep.of_increase {sender next : CopaSender} {event : CopaEvent}
    (decided : sender.decision event = .ok true) (avoidance : sender.isSlowStart = false)
    (result : ((sender.observed event).checkDirection event).increase event = .ok next) :
    EventStep sender event next := by
  obtain ⟨change, computed, result⟩ := bind_eq_ok.mp result
  obtain ⟨congestionWindow, added, shape⟩ := bind_eq_ok.mp result
  rw [congestionWindow_checkDirection, steer_observed] at computed
  rw [congestionWindow_checkDirection] at added
  obtain ⟨fits, equality⟩ := addAndCheckOverflow_eq_ok.mp added
  rw [← Except.ok.inj shape, congestionWindow_checkDirection, steer_observed, equality]
  exact .increased change decided avoidance computed fits

theorem EventStep.of_decrease {sender next : CopaSender} {event : CopaEvent}
    (decided : sender.decision event = .ok false)
    (result : ((sender.observed event).checkDirection event).decrease event = .ok next) :
    EventStep sender event next := by
  obtain ⟨change, computed, result⟩ := bind_eq_ok.mp result
  obtain ⟨congestionWindow, subtracted, shape⟩ := bind_eq_ok.mp result
  rw [congestionWindow_checkDirection, steer_observed] at computed
  rw [congestionWindow_checkDirection] at subtracted
  obtain ⟨fits, equality⟩ := subtractAndCheckUnderflow_eq_ok.mp subtracted
  rw [← Except.ok.inj shape, congestionWindow_checkDirection, steer_observed, equality]
  exact .decreased change decided computed fits

theorem EventStep.of_onCongestionEvent {sender next : CopaSender} {event : CopaEvent}
    (result : sender.onCongestionEvent event = .ok next) : EventStep sender event next := by
  rw [onCongestionEvent_eq] at result
  obtain ⟨increaseCwnd, decided, moved⟩ := bind_eq_ok.mp result
  cases increaseCwnd with
  | false => exact .of_decrease decided moved
  | true =>
      cases slow : sender.isSlowStart with
      | false => exact .of_increase decided slow (by simpa [slow] using moved)
      | true => exact .of_slowStart decided slow (by simpa [slow] using moved)

inductive EventFault (sender : CopaSender) (event : CopaEvent) : CopaFault → Prop where
  | delay (negative : event.latestRtt < (sender.observed event).minRttFilter.getBest) :
      EventFault sender event .delayNegative
  | standing (zero : (sender.observed event).standingRttFilter.getBest = 0) :
      EventFault sender event .rttStandingZero
  /-- The current rate or a change of the window is not representable. -/
  | conversion : EventFault sender event .conversionOverflow
  | doubling (decided : sender.decision event = .ok true) (slow : sender.isSlowStart = true)
      (due : sender.DoublingDue event)
      (overflow : 2 ^ 64 - 1 - sender.congestionWindow < sender.congestionWindow) :
      EventFault sender event .overflowBytesInFlight
  | addition (change : Nat) (decided : sender.decision event = .ok true)
      (avoidance : sender.isSlowStart = false)
      (computed : windowChange sender.congestionWindow event.ackedPackets.length
        (sender.steer event .up).velocity = .ok change)
      (overflow : 2 ^ 64 - 1 - change < sender.congestionWindow) :
      EventFault sender event .overflowBytesInFlight
  | reduction (change : Nat) (decided : sender.decision event = .ok false)
      (computed : windowChange sender.congestionWindow event.ackedPackets.length
        (sender.steer event .down).velocity = .ok change)
      (underflow : sender.congestionWindow <
        min change (subU64 sender.congestionWindow minCongestionWindow)) :
      EventFault sender event .underflowBytesInFlight

section Faults

variable {sender : CopaSender} {event : CopaEvent} {fault : CopaFault}

theorem EventFault.of_decision (failed : sender.decision event = .error fault) :
    EventFault sender event fault := by
  unfold decision CopaSender.increaseCwnd at failed
  dsimp only at failed
  split at failed
  next negative =>
    rw [← Except.error.inj failed]
    exact .delay negative
  next =>
    split at failed
    next zero =>
      rw [← Except.error.inj failed]
      exact .standing zero
    next =>
      split at failed
      next => cases failed
      next =>
        split at failed
        next =>
          rw [← Except.error.inj failed]
          exact .conversion
        next => cases failed

theorem EventFault.of_slowStart (decided : sender.decision event = .ok true)
    (slow : sender.isSlowStart = true)
    (result : (sender.observed event).slowStart event = .error fault) :
    EventFault sender event fault := by
  unfold CopaSender.slowStart at result
  rw [lastCwndDoubleTime_observed, congestionWindow_observed] at result
  split at result
  next => cases result
  next set =>
    split at result
    next due =>
      rcases bind_eq_error.mp result with failed | ⟨_, _, impossible⟩
      · obtain ⟨overflow, rfl⟩ := addAndCheckOverflow_eq_error.mp failed
        exact .doubling decided slow ⟨set, due⟩ overflow
      · cases impossible
    next => cases result

theorem EventFault.of_increase (decided : sender.decision event = .ok true)
    (avoidance : sender.isSlowStart = false)
    (result : ((sender.observed event).checkDirection event).increase event = .error fault) :
    EventFault sender event fault := by
  rcases bind_eq_error.mp result with failed | ⟨change, computed, result⟩
  · rw [windowChange_eq_error failed]
    exact .conversion
  · rw [congestionWindow_checkDirection, steer_observed] at computed
    rcases bind_eq_error.mp result with failed | ⟨_, _, impossible⟩
    · rw [congestionWindow_checkDirection] at failed
      obtain ⟨overflow, rfl⟩ := addAndCheckOverflow_eq_error.mp failed
      exact .addition change decided avoidance computed overflow
    · cases impossible

theorem EventFault.of_decrease (decided : sender.decision event = .ok false)
    (result : ((sender.observed event).checkDirection event).decrease event = .error fault) :
    EventFault sender event fault := by
  rcases bind_eq_error.mp result with failed | ⟨change, computed, result⟩
  · rw [windowChange_eq_error failed]
    exact .conversion
  · rw [congestionWindow_checkDirection, steer_observed] at computed
    rcases bind_eq_error.mp result with failed | ⟨_, _, impossible⟩
    · rw [congestionWindow_checkDirection] at failed
      obtain ⟨underflow, rfl⟩ := subtractAndCheckUnderflow_eq_error.mp failed
      exact .reduction change decided computed underflow
    · cases impossible

theorem EventFault.of_onCongestionEvent (result : sender.onCongestionEvent event = .error fault) :
    EventFault sender event fault := by
  rw [onCongestionEvent_eq] at result
  rcases bind_eq_error.mp result with failed | ⟨increaseCwnd, decided, moved⟩
  · exact .of_decision failed
  · cases increaseCwnd with
    | false => exact .of_decrease decided moved
    | true =>
        cases slow : sender.isSlowStart with
        | false => exact .of_increase decided slow (by simpa [slow] using moved)
        | true => exact .of_slowStart decided slow (by simpa [slow] using moved)

end Faults

end CopaSender

end Ns3Quic.CongestionControl
