import Ns3Quic.CongestionControl.VegasSender

/-!
# Rounds and modes of the Vegas sender

What one loss and one acknowledgement do to a sender is said once, by
`onPacketLost_cases` and `AckStep`.  From it follow the facts about the packet
numbers that a sender remembers, the mode it is in, and the round-trip times
it compares at the end of a round.
-/

namespace Ns3Quic.CongestionControl

open TransitionSystem LoopRules

namespace VegasWindow

variable {window : VegasWindow} {baseRtt minRtt : Nat}

theorem inSlowStart_eq_false_iff :
    window.inSlowStart = false ↔ window.slowstartThreshold ≤ window.congestionWindow := by
  simp [inSlowStart]

theorem clamp_eq_self (floor : kDefaultMinimumCongestionWindow ≤ window.congestionWindow) :
    window.clamp = window := by
  unfold clamp
  rw [max_eq_left floor]

theorem checkedAdjust_eq_ok {next : VegasWindow}
    (result : window.checkedAdjust baseRtt minRtt = .ok next) :
    next = window.adjust baseRtt minRtt := by
  unfold checkedAdjust at result
  split at result
  next => cases result
  next =>
    split at result
    next => cases result
    next =>
      split at result
      next => cases result
      next => exact (Except.ok.inj result).symm

theorem checkedAdjust_eq_error {fault : VegasFault}
    (result : window.checkedAdjust baseRtt minRtt = .error fault) :
    (fault = .divisionByZero ∧ (minRtt = 0 ∨ baseRtt = 0)) ∨
      (fault = .minRttBelowBaseRtt ∧ minRtt < baseRtt) := by
  unfold checkedAdjust at result
  split at result
  next zero => exact Or.inl ⟨(Except.error.inj result).symm, Or.inl zero⟩
  next =>
    split at result
    next tooSmall => exact Or.inr ⟨(Except.error.inj result).symm, tooSmall⟩
    next =>
      split at result
      next zero => exact Or.inl ⟨(Except.error.inj result).symm, Or.inr zero⟩
      next => cases result

end VegasWindow

namespace VegasSender

variable {sender next : VegasSender}

theorem onPacketLost_cases (sender : VegasSender) (packetNumber : Nat) :
    (sender.onPacketLost packetNumber = sender ∧
      ∃ cutback, sender.largestSentAtLastCutback = some cutback ∧ packetNumber ≤ cutback) ∨
    sender.onPacketLost packetNumber =
      { sender with
        toVegasWindow := sender.toVegasWindow.cutBack
        largestSentAtLastCutback := sender.largestSentPacketNumber } := by
  unfold onPacketLost
  split
  next covered =>
    obtain ⟨cutback, known, covers⟩ := (Option.any_eq_true _ _).mp covered
    exact Or.inl ⟨rfl, cutback, known, by simpa using covers⟩
  next => exact Or.inr rfl

theorem losses_invariant (property : VegasSender → Prop)
    (preserved : ∀ state packet, property state → property (state.onPacketLost packet))
    (initially : property sender) (lostPackets : List Nat) :
    property (lostPackets.foldl onPacketLost sender) :=
  List.foldlRecOn lostPackets onPacketLost initially
    fun state holds packet _ => preserved state packet holds

/-- What a successful `OnPacketAcked` does. -/
inductive AckStep (sender : VegasSender) (packet : Nat) : VegasSender → Prop where
  | reno : sender.vegasMode = false →
      AckStep sender packet { sender with
        largestAckedPacketNumber := updateMax sender.largestAckedPacketNumber packet
        toVegasWindow := sender.toVegasWindow.increaseCongestionWindowAsReno }
  | within (beg : Nat) : sender.vegasMode = true → sender.begSendNext = some beg →
      packet < beg →
      AckStep sender packet { sender with
        largestAckedPacketNumber := updateMax sender.largestAckedPacketNumber packet
        toVegasWindow :=
          (if sender.inSlowStart then sender.toVegasWindow.grow
            else sender.toVegasWindow).clamp }
  | roundEnds (beg : Nat) (window : VegasWindow) : sender.vegasMode = true →
      sender.begSendNext = some beg → beg ≤ packet → sender.roundEnd = .ok window →
      AckStep sender packet { sender with
        largestAckedPacketNumber := updateMax sender.largestAckedPacketNumber packet
        toVegasWindow := window.clamp
        begSendNext := sender.largestSentPacketNumber
        minRtt := infiniteUs
        rttCount := 0 }

theorem ackStep_of_ok {packet : Nat} (result : sender.onPacketAcked packet = .ok next) :
    AckStep sender packet next := by
  unfold onPacketAcked at result
  dsimp only at result
  split at result
  next renoMode =>
    rw [← Except.ok.inj result]
    exact .reno (by simpa using renoMode)
  next vegasMode =>
    have mode : sender.vegasMode = true := by simpa using vegasMode
    split at result
    next => cases result
    next beg known =>
      split at result
      next reached =>
        obtain ⟨window, ended, shape⟩ := bind_eq_ok.mp result
        rw [← Except.ok.inj shape]
        exact .roundEnds beg window mode known reached ended
      next ahead =>
        rw [← Except.ok.inj result]
        exact .within beg mode known (by omega)

inductive AckFault (sender : VegasSender) (packet : Nat) (fault : VegasFault) : Prop where
  | begSendNext : fault = .begSendNextUnset → sender.begSendNext = none →
      AckFault sender packet fault
  | rule (beg : Nat) : sender.vegasMode = true → sender.begSendNext = some beg →
      beg ≤ packet → 2 < sender.rttCount →
      sender.toVegasWindow.checkedAdjust sender.baseRttFilter.getBest sender.minRtt =
        .error fault →
      AckFault sender packet fault

theorem ackFault_of_error {packet : Nat} {fault : VegasFault}
    (result : sender.onPacketAcked packet = .error fault) : AckFault sender packet fault := by
  unfold onPacketAcked at result
  dsimp only at result
  split at result
  next => cases result
  next vegasMode =>
    split at result
    next unset => exact .begSendNext (Except.error.inj result).symm unset
    next beg known =>
      split at result
      next reached =>
        rcases bind_eq_error.mp result with failed | ⟨_, _, impossible⟩
        · unfold roundEnd at failed
          split at failed
          next => cases failed
          next enough =>
            exact .rule beg (by simpa using vegasMode) known reached (not_le.mp enough) failed
        · cases impossible
      next => cases result

theorem onPacketAcked_begSendNext {packet : Nat}
    (result : sender.onPacketAcked packet = .error .begSendNextUnset) :
    sender.begSendNext = none := by
  cases ackFault_of_error result with
  | begSendNext _ unset => exact unset
  | rule _ _ _ _ _ failed =>
      rcases VegasWindow.checkedAdjust_eq_error failed with ⟨impossible, _⟩ | ⟨impossible, _⟩
      · cases impossible
      · cases impossible

/-- The packet number `number` is unset or at most `largest`. -/
def AtMost (number largest : Option Nat) : Prop :=
  ∀ value, number = some value → ∃ bound, largest = some bound ∧ value ≤ bound

/-- The packet numbers a sender remembers are those of packets that were
sent, and a round has begun when the first packet is sent. -/
structure Numbers (sender : VegasSender) : Prop where
  begSet : sender.largestSentPacketNumber ≠ none → sender.begSendNext ≠ none
  beg : AtMost sender.begSendNext sender.largestSentPacketNumber
  acked : AtMost sender.largestAckedPacketNumber sender.largestSentPacketNumber
  cutback : AtMost sender.largestSentAtLastCutback sender.largestSentPacketNumber

theorem AtMost.refl (largest : Option Nat) : AtMost largest largest :=
  fun value known => ⟨value, known, le_refl _⟩

theorem atMost_updateMax {current largest : Option Nat} {packet bound : Nat}
    (old : AtMost current largest) (known : largest = some bound) (below : packet ≤ bound) :
    AtMost (updateMax current packet) largest := by
  intro value updated
  refine ⟨bound, known, ?_⟩
  cases current with
  | none =>
      simp only [updateMax, Option.some.injEq] at updated
      omega
  | some before =>
      obtain ⟨other, otherKnown, otherBelow⟩ := old before rfl
      rw [known, Option.some.injEq] at otherKnown
      simp only [updateMax, Option.some.injEq] at updated
      omega

theorem Numbers.onPacketLost (numbers : sender.Numbers) (packet : Nat) :
    (sender.onPacketLost packet).Numbers := by
  rcases sender.onPacketLost_cases packet with ⟨same, _⟩ | shape
  · rw [same]
    exact numbers
  · rw [shape]
    exact ⟨numbers.begSet, numbers.beg, numbers.acked, .refl _⟩

theorem Numbers.ackStep (numbers : sender.Numbers) {packet bound : Nat}
    (known : sender.largestSentPacketNumber = some bound) (below : packet ≤ bound)
    (step : AckStep sender packet next) : next.Numbers := by
  have acked := atMost_updateMax numbers.acked known below
  cases step with
  | reno => exact ⟨numbers.begSet, numbers.beg, acked, numbers.cutback⟩
  | within => exact ⟨numbers.begSet, numbers.beg, acked, numbers.cutback⟩
  | roundEnds => exact ⟨fun sentSome => sentSome, .refl _, acked, numbers.cutback⟩

/-- The parts of an event: measuring, the losses, the acknowledgements and the
change of mode. -/
theorem onCongestionEvent_eq_ok {latestRtt eventTime : Nat} {ackedPackets lostPackets : List Nat}
    (result : sender.onCongestionEvent latestRtt eventTime ackedPackets lostPackets = .ok next) :
    ∃ collected after,
      collected = (if ackedPackets.isEmpty then sender
        else sender.collectRtt latestRtt eventTime) ∧
      ackedPackets.foldlM onPacketAcked (lostPackets.foldl onPacketLost collected) =
        .ok after ∧
      next = after.switchMode collected.inRecovery := by
  obtain ⟨after, loop, shape⟩ := bind_eq_ok.mp result
  exact ⟨_, after, rfl, loop, (Except.ok.inj shape).symm⟩

/-- Measuring touches the packet numbers and the mode as little as the window. -/
structure SameNumbers (sender other : VegasSender) : Prop where
  window : other.toVegasWindow = sender.toVegasWindow
  sent : other.largestSentPacketNumber = sender.largestSentPacketNumber
  acked : other.largestAckedPacketNumber = sender.largestAckedPacketNumber
  cutback : other.largestSentAtLastCutback = sender.largestSentAtLastCutback
  beg : other.begSendNext = sender.begSendNext
  mode : other.vegasMode = sender.vegasMode

theorem sameNumbers_collect (sender : VegasSender) (latestRtt eventTime : Nat)
    (ackedPackets : List Nat) :
    SameNumbers sender (if ackedPackets.isEmpty then sender
      else sender.collectRtt latestRtt eventTime) := by
  split
  next => exact ⟨rfl, rfl, rfl, rfl, rfl, rfl⟩
  next => exact ⟨rfl, rfl, rfl, rfl, rfl, rfl⟩

theorem SameNumbers.numbers {other : VegasSender} (same : SameNumbers sender other)
    (numbers : sender.Numbers) : other.Numbers := by
  constructor
  case begSet => rw [same.sent, same.beg]; exact numbers.begSet
  case beg => rw [same.sent, same.beg]; exact numbers.beg
  case acked => rw [same.sent, same.acked]; exact numbers.acked
  case cutback => rw [same.sent, same.cutback]; exact numbers.cutback

theorem SameNumbers.inRecovery {other : VegasSender} (same : SameNumbers sender other) :
    other.inRecovery = sender.inRecovery := by
  simp [VegasSender.inRecovery, same.acked, same.cutback]

structure AfterLosses (sender after : VegasSender) : Prop where
  sent : after.largestSentPacketNumber = sender.largestSentPacketNumber
  acked : after.largestAckedPacketNumber = sender.largestAckedPacketNumber
  filter : after.baseRttFilter = sender.baseRttFilter
  minRtt : after.minRtt = sender.minRtt
  rttCount : after.rttCount = sender.rttCount
  mode : after.vegasMode = sender.vegasMode

theorem afterLosses (sender : VegasSender) (lostPackets : List Nat) :
    AfterLosses sender (lostPackets.foldl onPacketLost sender) := by
  induction lostPackets generalizing sender with
  | nil => exact ⟨rfl, rfl, rfl, rfl, rfl, rfl⟩
  | cons packet rest inductionHypothesis =>
      have later := inductionHypothesis (sender.onPacketLost packet)
      rcases sender.onPacketLost_cases packet with ⟨same, _⟩ | shape
      · rw [same] at later
        rwa [List.foldl_cons, same]
      · rw [shape] at later
        rw [List.foldl_cons, shape]
        exact ⟨later.sent, later.acked, later.filter, later.minRtt, later.rttCount,
          later.mode⟩

theorem Numbers.losses (numbers : sender.Numbers) (lostPackets : List Nat) :
    (lostPackets.foldl VegasSender.onPacketLost sender).Numbers :=
  losses_invariant Numbers (fun _ packet holds => holds.onPacketLost packet) numbers lostPackets

theorem AckStep.frame {packet : Nat} (step : AckStep sender packet next) :
    next.largestSentPacketNumber = sender.largestSentPacketNumber ∧
      next.largestSentAtLastCutback = sender.largestSentAtLastCutback ∧
      next.baseRttFilter = sender.baseRttFilter ∧ next.vegasMode = sender.vegasMode := by
  cases step with
  | reno => exact ⟨rfl, rfl, rfl, rfl⟩
  | within => exact ⟨rfl, rfl, rfl, rfl⟩
  | roundEnds => exact ⟨rfl, rfl, rfl, rfl⟩

theorem acks_frame {ackedPackets : List Nat}
    (result : ackedPackets.foldlM onPacketAcked sender = .ok next) :
    next.largestSentPacketNumber = sender.largestSentPacketNumber ∧
      next.largestSentAtLastCutback = sender.largestSentAtLastCutback ∧
      next.baseRttFilter = sender.baseRttFilter ∧ next.vegasMode = sender.vegasMode := by
  refine foldlM_invariant (fun _ state =>
      state.largestSentPacketNumber = sender.largestSentPacketNumber ∧
        state.largestSentAtLastCutback = sender.largestSentAtLastCutback ∧
        state.baseRttFilter = sender.baseRttFilter ∧ state.vegasMode = sender.vegasMode)
    ackedPackets ?_ 0 ⟨rfl, rfl, rfl, rfl⟩ result
  intro _ state packet after _ same step
  obtain ⟨sent, cutback, filter, mode⟩ := (ackStep_of_ok step).frame
  exact ⟨sent.trans same.1, cutback.trans same.2.1, filter.trans same.2.2.1,
    mode.trans same.2.2.2⟩

theorem Numbers.acks (numbers : sender.Numbers) {ackedPackets : List Nat}
    (known : ∀ packet ∈ ackedPackets, AtMost (some packet) sender.largestSentPacketNumber)
    (result : ackedPackets.foldlM VegasSender.onPacketAcked sender = .ok next) :
    next.Numbers := by
  refine (foldlM_invariant (fun _ state => state.Numbers ∧
      state.largestSentPacketNumber = sender.largestSentPacketNumber)
    ackedPackets ?_ 0 ⟨numbers, rfl⟩ result).1
  intro _ state packet after membership holds step
  obtain ⟨stateNumbers, same⟩ := holds
  obtain ⟨bound, sent, below⟩ := known packet membership packet rfl
  have taken := ackStep_of_ok step
  exact ⟨stateNumbers.ackStep (same.trans sent) below taken, taken.frame.1.trans same⟩

theorem Numbers.switchMode (numbers : sender.Numbers) (before : Bool) :
    (sender.switchMode before).Numbers := by
  unfold VegasSender.switchMode
  split
  next =>
    split
    next => exact ⟨numbers.begSet, numbers.beg, numbers.acked, numbers.cutback⟩
    next => exact ⟨fun sentSome => sentSome, .refl _, numbers.acked, numbers.cutback⟩
  next => exact numbers

theorem switchMode_mode (sender : VegasSender) (before : Bool)
    (mode : sender.vegasMode = !before) :
    (sender.switchMode before).vegasMode = !(sender.switchMode before).inRecovery := by
  unfold switchMode
  split
  next changed =>
    split
    next recovers =>
      have same : ({ sender with vegasMode := false } : VegasSender).inRecovery = true :=
        recovers
      rw [same]
      rfl
    next recovered =>
      have same : inRecovery { sender with
          vegasMode := true
          begSendNext := sender.largestSentPacketNumber
          minRtt := infiniteUs
          rttCount := 0 } = false := Bool.eq_false_iff.mpr recovered
      rw [same]
      rfl
  next unchanged =>
    simp only [bne_iff_ne, ne_eq, Decidable.not_not] at unchanged
    rw [mode, unchanged]

theorem switchMode_window (sender : VegasSender) (before : Bool) :
    (sender.switchMode before).toVegasWindow = sender.toVegasWindow ∧
      (sender.switchMode before).largestAckedPacketNumber =
        sender.largestAckedPacketNumber ∧
      (sender.switchMode before).largestSentAtLastCutback =
        sender.largestSentAtLastCutback := by
  unfold switchMode
  split
  next => split <;> exact ⟨rfl, rfl, rfl⟩
  next => exact ⟨rfl, rfl, rfl⟩

theorem switchMode_sent (sender : VegasSender) (before : Bool) :
    (sender.switchMode before).largestSentPacketNumber = sender.largestSentPacketNumber := by
  unfold switchMode
  split
  next => split <;> rfl
  next => rfl

theorem Numbers.onCongestionEvent (numbers : sender.Numbers)
    (mode : sender.vegasMode = !sender.inRecovery)
    {latestRtt eventTime : Nat} {ackedPackets lostPackets : List Nat}
    (known : ∀ packet ∈ ackedPackets, AtMost (some packet) sender.largestSentPacketNumber)
    (result : sender.onCongestionEvent latestRtt eventTime ackedPackets lostPackets =
      .ok next) :
    next.Numbers ∧ next.largestSentPacketNumber = sender.largestSentPacketNumber ∧
      next.vegasMode = !next.inRecovery := by
  obtain ⟨collected, after, shape, loop, rfl⟩ := onCongestionEvent_eq_ok result
  have same := sameNumbers_collect sender latestRtt eventTime ackedPackets
  rw [← shape] at same
  have losses := afterLosses collected lostPackets
  obtain ⟨sent, _, _, afterMode⟩ := acks_frame loop
  have afterNumbers : after.Numbers := by
    apply ((same.numbers numbers).losses lostPackets).acks _ loop
    intro packet membership
    rw [losses.sent, same.sent]
    exact known packet membership
  refine ⟨afterNumbers.switchMode _, ?_, ?_⟩
  · rw [switchMode_sent, sent, losses.sent, same.sent]
  · apply switchMode_mode
    rw [afterMode, losses.mode, same.mode, same.inRecovery, mode]

theorem Numbers.begSendNext_set (numbers : sender.Numbers)
    {latestRtt eventTime : Nat} {ackedPackets lostPackets : List Nat}
    (known : ∀ packet ∈ ackedPackets, AtMost (some packet) sender.largestSentPacketNumber) :
    sender.onCongestionEvent latestRtt eventTime ackedPackets lostPackets ≠
      .error .begSendNextUnset := by
  intro result
  have same := sameNumbers_collect sender latestRtt eventTime ackedPackets
  rcases bind_eq_error.mp result with failed | ⟨_, _, impossible⟩
  · -- some acknowledgement finds the round unset, although a packet was sent
    obtain ⟨state, ⟨stateNumbers, sent⟩, packet, membership, unset⟩ :=
      foldlM_fault (fun state => state.Numbers ∧
          state.largestSentPacketNumber = sender.largestSentPacketNumber) ackedPackets
        (fun state packet after membership holds step => by
          obtain ⟨bound, largest, below⟩ := known packet membership packet rfl
          have taken := ackStep_of_ok step
          exact ⟨holds.1.ackStep (holds.2.trans largest) below taken,
            taken.frame.1.trans holds.2⟩)
        ⟨(same.numbers numbers).losses lostPackets,
          (afterLosses _ lostPackets).sent.trans same.sent⟩ failed
    obtain ⟨bound, largest, _⟩ := known packet membership packet rfl
    exact stateNumbers.begSet (by simp [sent, largest]) (onPacketAcked_begSendNext unset)
  · cases impossible

end VegasSender

namespace VegasConnection

open VegasSender

variable {connection next : VegasConnection}

structure Invariant (connection : VegasConnection) : Prop where
  numbers : connection.sender.Numbers
  sent : ∀ packet ∈ connection.sent,
    AtMost (some packet) connection.sender.largestSentPacketNumber
  largest : ∀ bound, connection.sender.largestSentPacketNumber = some bound →
    bound ∈ connection.sent
  mode : connection.sender.vegasMode = !connection.sender.inRecovery

theorem invariant_create (initialWindow maxWindow : Nat) :
    (create initialWindow maxWindow).Invariant := by
  refine ⟨⟨?_, ?_, ?_, ?_⟩, ?_, ?_, rfl⟩ <;>
    simp [create, VegasSender.create, AtMost]

theorem Invariant.packetSent (inv : connection.Invariant) {packet : Nat}
    (enabled : connection.Enabled (.packetSent packet))
    (result : connection.perform (.packetSent packet) = .ok next) : next.Invariant := by
  rw [packetSent_eq_ok result]
  -- whatever was at most the old largest number is below the new one
  have raise : ∀ number, AtMost number connection.sender.largestSentPacketNumber →
      AtMost number (some packet) := by
    intro number below value known
    obtain ⟨bound, largest, small⟩ := below value known
    have smaller := enabled.2 bound (inv.largest bound largest)
    exact ⟨packet, rfl, by omega⟩
  refine ⟨⟨?_, ?_, raise _ inv.numbers.acked, raise _ inv.numbers.cutback⟩, ?_, ?_, inv.mode⟩
  · simp
  · cases known : connection.sender.begSendNext with
    | none => exact AtMost.refl _
    | some beg => exact raise _ (known ▸ inv.numbers.beg)
  · intro other membership
    cases membership with
    | head => exact AtMost.refl _
    | tail _ older => exact raise _ (inv.sent other older)
  · intro bound known
    rw [← Option.some.inj known]
    exact List.mem_cons_self

theorem Invariant.congestionEvent (inv : connection.Invariant)
    {latestRtt eventTime : Nat} {ackedPackets lostPackets : List Nat}
    (enabled : connection.Enabled
      (.congestionEvent latestRtt eventTime ackedPackets lostPackets))
    (result : connection.perform
      (.congestionEvent latestRtt eventTime ackedPackets lostPackets) = .ok next) :
    next.Invariant := by
  obtain ⟨performed, samePackets, _⟩ := congestionEvent_eq_ok result
  obtain ⟨numbers, sameSent, mode⟩ := inv.numbers.onCongestionEvent inv.mode
    (fun packet membership => inv.sent packet (enabled.2.1 packet membership)) performed
  refine ⟨numbers, ?_, ?_, mode⟩
  · rw [sameSent, samePackets]
    exact inv.sent
  · rw [sameSent, samePackets]
    exact inv.largest

theorem Invariant.step (inv : connection.Invariant) {action : VegasAction}
    (step : Step connection action next) : next.Invariant := by
  obtain ⟨enabled, result⟩ := step
  cases action with
  | packetSent packet => exact inv.packetSent enabled result
  | congestionEvent latestRtt eventTime ackedPackets lostPackets =>
      exact inv.congestionEvent enabled result
  | setInitialCongestionWindowInPackets congestionWindow =>
      rw [setInitialCongestionWindowInPackets_eq_ok result]
      exact { inv with numbers := { inv.numbers with } }

theorem invariant_of_run {initialWindow maxWindow : Nat} {actions : List VegasAction}
    (run : Run Step (create initialWindow maxWindow) actions connection) :
    connection.Invariant :=
  run.invariant Invariant (invariant_create initialWindow maxWindow)
    fun _ _ _ inv step => inv.step step

theorem Invariant.begSendNext_set (inv : connection.Invariant) {action : VegasAction}
    (enabled : connection.Enabled action) :
    connection.perform action ≠ .error .begSendNextUnset := by
  intro result
  rcases perform_eq_error result with impossible | ⟨_, _, ackedPackets, _, rfl, failed⟩
  · cases impossible
  · exact inv.numbers.begSendNext_set
      (fun packet membership => inv.sent packet (enabled.2.1 packet membership)) failed

/-- In every run, the packet numbers that the sender remembers are unset or at
most the largest one sent, a round has begun once a packet was sent, and the
sender is in Vegas mode exactly when it is not in recovery. -/
theorem packet_numbers_and_mode {initialWindow maxWindow : Nat} {actions : List VegasAction}
    (run : Run Step (create initialWindow maxWindow) actions connection) :
    AtMost connection.sender.begSendNext connection.sender.largestSentPacketNumber ∧
    AtMost connection.sender.largestAckedPacketNumber
      connection.sender.largestSentPacketNumber ∧
    AtMost connection.sender.largestSentAtLastCutback
      connection.sender.largestSentPacketNumber ∧
    (connection.sent ≠ [] → connection.sender.begSendNext ≠ none) ∧
    (∀ action, connection.Enabled action →
      connection.perform action ≠ .error .begSendNextUnset) ∧
    (connection.sender.vegasMode = true ↔ connection.sender.inRecovery = false) := by
  have inv := invariant_of_run run
  refine ⟨inv.numbers.beg, inv.numbers.acked, inv.numbers.cutback, ?_,
    fun action enabled => inv.begSendNext_set enabled, ?_⟩
  · intro somethingSent
    obtain ⟨packet, membership⟩ := List.exists_mem_of_ne_nil _ somethingSent
    obtain ⟨bound, largest, _⟩ := inv.sent packet membership packet rfl
    exact inv.numbers.begSet (by simp [largest])
  · rw [inv.mode]
    simp

/-- A loss is followed by the first acknowledgement, which starts recovery. -/
theorem packet_numbers_and_mode_recovery :
    ∃ connection : VegasConnection,
      Run Step (create 10 100)
        [.packetSent 1, .packetSent 2, .packetSent 3, .congestionEvent 0 1 [] [1],
          .congestionEvent 100 2 [2] []] connection ∧
      connection.sender.inRecovery = true ∧ connection.sender.vegasMode = false := by
  have run : Run Step (create 10 100) _ _ := Run.of_execute
    [.packetSent 1, .packetSent 2, .packetSent 3, .congestionEvent 0 1 [] [1],
      .congestionEvent 100 2 [2] []] rfl
  refine ⟨_, run, rfl, ?_⟩
  have mode := (packet_numbers_and_mode run).2.2.2.2.2
  exact Bool.eq_false_iff.mpr fun vegas => Bool.false_ne_true (mode.mp vegas).symm

end VegasConnection

end Ns3Quic.CongestionControl
