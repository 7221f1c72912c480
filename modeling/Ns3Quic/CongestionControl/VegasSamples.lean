import Ns3Quic.CongestionControl.VegasBaseRtt
import Ns3Quic.CongestionControl.VegasIncrease

/-!
# The samples of a round

`rtt_count_` and `min_rtt_` are reset at the end of every round, inside the
loop over the acknowledgements, and when Vegas is enabled again after recovery.
The samples recorded since the last reset are kept beside the sender here.
They tie the counter to the minimum: where the Vegas rule is reached, at least
three samples have been recorded, the minimum is one of them, and the filter
of the base RTT has been initialized.

A sample is one microsecond more than the latest RTT.  So it is positive, and
it is finite unless the latest RTT is the largest finite delta.
-/

namespace Ns3Quic.CongestionControl

open TransitionSystem LoopRules WindowedFilter

namespace VegasSender

variable {sender next : VegasSender} {samples : List Nat}

def endsRound (sender : VegasSender) (packet : Nat) : Bool :=
  sender.vegasMode && sender.begSendNext.any fun beg => decide (beg ≤ packet)

/-- `OnPacketAcked` reaches the Vegas rule, which divides by the two RTTs. -/
def reachesVegasRule (sender : VegasSender) (packet : Nat) : Bool :=
  sender.endsRound packet && decide (2 < sender.rttCount)

def enablesVegas (sender : VegasSender) (before : Bool) : Bool :=
  sender.inRecovery != before && !sender.inRecovery

def recordAck (sender : VegasSender) (packet : Nat) (samples : List Nat) : List Nat :=
  if sender.endsRound packet then [] else samples

def recordRtt (latestRtt : Nat) (ackedPackets samples : List Nat) : List Nat :=
  if ackedPackets.isEmpty then samples else (latestRtt + 1) :: samples

def recordEvent (sender : VegasSender) (latestRtt eventTime : Nat)
    (ackedPackets lostPackets samples : List Nat) : List Nat :=
  match ackedPackets.foldlM (recording onPacketAcked recordAck)
      (sender.beforeAcks latestRtt eventTime ackedPackets lostPackets,
        recordRtt latestRtt ackedPackets samples) with
  | .error _ => samples
  | .ok (after, samples) =>
      if after.enablesVegas
          (if ackedPackets.isEmpty then sender
            else sender.collectRtt latestRtt eventTime).inRecovery then
        []
      else
        samples

/-- The samples recorded since the last reset are what `rtt_count_` counts and
what `min_rtt_` is the minimum of. -/
structure Sampled (sender : VegasSender) (samples : List Nat) : Prop where
  count : sender.rttCount = samples.length
  unmeasured : samples = [] → sender.minRtt = infiniteUs
  least : samples ≠ [] → sender.minRtt ∈ samples
  lower : ∀ sample ∈ samples, sender.minRtt ≤ sample
  positive : ∀ sample ∈ samples, 1 ≤ sample
  zeroValue : sender.baseRttFilter.zeroValue = 0
  sorted : sender.baseRttFilter.Sorted
  initialized : samples ≠ [] → sender.baseRttFilter.best.sample ≠ 0

theorem sampled_create (initialWindow maxWindow : Nat) :
    (create initialWindow maxWindow).Sampled [] where
  count := rfl
  unmeasured := fun _ => rfl
  least := fun nonempty => absurd rfl nonempty
  lower := by simp
  positive := by simp
  zeroValue := rfl
  sorted := ⟨le_refl _, le_refl _⟩
  initialized := fun nonempty => absurd rfl nonempty

theorem Sampled.reset (sampled : sender.Sampled samples) (count : next.rttCount = 0)
    (unmeasured : next.minRtt = infiniteUs)
    (sameFilter : next.baseRttFilter = sender.baseRttFilter) : next.Sampled [] where
  count := count
  unmeasured := fun _ => unmeasured
  least := fun nonempty => absurd rfl nonempty
  lower := by simp
  positive := by simp
  zeroValue := by rw [sameFilter]; exact sampled.zeroValue
  sorted := by rw [sameFilter]; exact sampled.sorted
  initialized := fun nonempty => absurd rfl nonempty

theorem Sampled.collectRtt (sampled : sender.Sampled samples) {latestRtt eventTime : Nat}
    (finite : latestRtt < infiniteUs) :
    (sender.collectRtt latestRtt eventTime).Sampled ((latestRtt + 1) :: samples) := by
  have minimum : (sender.collectRtt latestRtt eventTime).minRtt =
      min (latestRtt + 1) sender.minRtt := by
    unfold VegasSender.collectRtt
    dsimp only
    split <;> omega
  constructor
  case count => exact congrArg (· + 1) sampled.count
  case unmeasured => exact fun nothing => absurd nothing (List.cons_ne_nil _ _)
  case least =>
    intro _
    rw [minimum]
    cases samples with
    | nil =>
        rw [sampled.unmeasured rfl, min_eq_left finite]
        exact List.mem_cons_self
    | cons sample others =>
        rcases Nat.le_total (latestRtt + 1) sender.minRtt with new | old
        · rw [min_eq_left new]
          exact List.mem_cons_self
        · rw [min_eq_right old]
          exact List.mem_cons_of_mem _ (sampled.least (List.cons_ne_nil _ _))
  case lower =>
    rw [minimum]
    intro sample membership
    rcases List.mem_cons.mp membership with rfl | earlier
    · exact min_le_left _ _
    · exact (min_le_right _ _).trans (sampled.lower sample earlier)
  case positive =>
    intro sample membership
    rcases List.mem_cons.mp membership with rfl | earlier
    · exact Nat.le_add_left _ _
    · exact sampled.positive sample earlier
  case zeroValue => exact (update_constants _ _ _ _).2.trans sampled.zeroValue
  case sorted => exact (sorted_update sampled.sorted).1
  case initialized =>
    exact fun _ => baseRttFilter_measured sampled.sorted sampled.zeroValue latestRtt eventTime

theorem Sampled.losses (sampled : sender.Sampled samples) (lostPackets : List Nat) :
    (lostPackets.foldl onPacketLost sender).Sampled samples := by
  have losses := afterLosses sender lostPackets
  constructor
  case count => rw [losses.rttCount]; exact sampled.count
  case unmeasured => rw [losses.minRtt]; exact sampled.unmeasured
  case least => rw [losses.minRtt]; exact sampled.least
  case lower => rw [losses.minRtt]; exact sampled.lower
  case positive => exact sampled.positive
  case zeroValue => rw [losses.filter]; exact sampled.zeroValue
  case sorted => rw [losses.filter]; exact sampled.sorted
  case initialized => rw [losses.filter]; exact sampled.initialized

theorem Sampled.beforeAcks (sampled : sender.Sampled samples) {latestRtt : Nat}
    (eventTime : Nat) (ackedPackets lostPackets : List Nat) (finite : latestRtt < infiniteUs) :
    (sender.beforeAcks latestRtt eventTime ackedPackets lostPackets).Sampled
      (recordRtt latestRtt ackedPackets samples) := by
  unfold VegasSender.beforeAcks recordRtt
  apply Sampled.losses
  split
  next => exact sampled
  next => exact sampled.collectRtt finite

theorem Sampled.ackStep (sampled : sender.Sampled samples) {packet : Nat}
    (step : AckStep sender packet next) :
    next.Sampled (sender.recordAck packet samples) := by
  unfold recordAck endsRound
  cases step with
  | reno renoMode =>
      rw [renoMode]
      exact { sampled with }
  | within beg vegasMode known ahead =>
      have early : decide (beg ≤ packet) = false := decide_eq_false (not_le.mpr ahead)
      rw [vegasMode, known, Option.any_some, early]
      exact { sampled with }
  | roundEnds beg window vegasMode known reached ended =>
      rw [vegasMode, known, Option.any_some, decide_eq_true reached]
      exact sampled.reset rfl rfl rfl

theorem Sampled.recordedAck {both after : VegasSender × List Nat} {packet : Nat}
    (sampled : both.1.Sampled both.2)
    (step : recording onPacketAcked recordAck both packet = .ok after) :
    after.1.Sampled after.2 := by
  obtain ⟨acked, recorded⟩ := recording_eq_ok.mp step
  rw [recorded]
  exact sampled.ackStep (ackStep_of_ok acked)

theorem Sampled.switchMode (sampled : sender.Sampled samples) (before : Bool) :
    (sender.switchMode before).Sampled
      (if sender.enablesVegas before then [] else samples) := by
  unfold VegasSender.switchMode enablesVegas
  cases changed : sender.inRecovery != before with
  | false => exact sampled
  | true =>
      cases sender.inRecovery with
      | true => exact { sampled with }
      | false => exact sampled.reset rfl rfl rfl

theorem Sampled.onCongestionEvent (sampled : sender.Sampled samples)
    {latestRtt eventTime : Nat} {ackedPackets lostPackets : List Nat}
    (finite : latestRtt < infiniteUs)
    (result : sender.onCongestionEvent latestRtt eventTime ackedPackets lostPackets =
      .ok next) :
    next.Sampled (sender.recordEvent latestRtt eventTime ackedPackets lostPackets samples) := by
  obtain ⟨collected, after, rfl, loop, rfl⟩ := onCongestionEvent_eq_ok result
  obtain ⟨history, recorded⟩ :=
    foldlM_recording recordAck (recordRtt latestRtt ackedPackets samples) loop
  have afterAcks : after.Sampled history :=
    foldlM_invariant (fun _ both => both.1.Sampled both.2) ackedPackets
      (fun _ _ _ _ _ holds step => holds.recordedAck step) 0
      (sampled.beforeAcks eventTime ackedPackets lostPackets finite) recorded
  unfold recordEvent VegasSender.beforeAcks
  rw [recorded]
  exact afterAcks.switchMode _

/-- Both divisors of the Vegas rule, where it is reached. -/
structure RuleDefined (sender : VegasSender) (samples : List Nat) : Prop where
  sample : sender.minRtt ∈ samples
  least : ∀ sample ∈ samples, sender.minRtt ≤ sample
  finite : sender.minRtt < infiniteUs ↔ ∃ sample ∈ samples, sample < infiniteUs
  minRtt : 1 ≤ sender.minRtt
  baseRtt : 1 ≤ sender.baseRttFilter.getBest

theorem Sampled.ruleDefined (sampled : sender.Sampled samples) {packet : Nat}
    (reaches : sender.reachesVegasRule packet = true) : sender.RuleDefined samples := by
  have nonempty : samples ≠ [] := by
    rintro rfl
    simp [reachesVegasRule, sampled.count] at reaches
  have least := sampled.least nonempty
  refine ⟨least, sampled.lower, ⟨fun finite => ⟨_, least, finite⟩, ?_⟩,
    sampled.positive _ least, Nat.one_le_iff_ne_zero.mpr (sampled.initialized nonempty)⟩
  rintro ⟨sample, membership, finite⟩
  exact (sampled.lower sample membership).trans_lt finite

theorem onPacketAcked_divisionByZero {packet : Nat}
    (result : sender.onPacketAcked packet = .error .divisionByZero) :
    sender.reachesVegasRule packet = true ∧
      (sender.minRtt = 0 ∨ sender.baseRttFilter.getBest = 0) := by
  cases ackFault_of_error result with
  | begSendNext impossible => cases impossible
  | rule beg vegasMode known reached enough failed =>
      rcases VegasWindow.checkedAdjust_eq_error failed with ⟨_, zero⟩ | ⟨impossible, _⟩
      · refine ⟨?_, zero⟩
        simp [reachesVegasRule, endsRound, vegasMode, known, reached, enough]
      · cases impossible

theorem Sampled.onCongestionEvent_divides (sampled : sender.Sampled samples)
    {latestRtt eventTime : Nat} {ackedPackets lostPackets : List Nat}
    (finite : latestRtt < infiniteUs) :
    sender.onCongestionEvent latestRtt eventTime ackedPackets lostPackets ≠
      .error .divisionByZero := by
  intro result
  rcases bind_eq_error.mp result with failed | ⟨_, _, impossible⟩
  · obtain ⟨state, ⟨history, holds⟩, packet, _, divides⟩ :=
      foldlM_fault (fun state => ∃ history, state.Sampled history) ackedPackets
        (fun state packet after _ holds step => by
          obtain ⟨history, holds⟩ := holds
          exact ⟨_, holds.ackStep (ackStep_of_ok step)⟩)
        ⟨_, sampled.beforeAcks eventTime ackedPackets lostPackets finite⟩ failed
    obtain ⟨reaches, zero⟩ := onPacketAcked_divisionByZero divides
    have defined := holds.ruleDefined reaches
    rcases zero with minRtt | baseRtt
    · exact absurd defined.minRtt (by omega)
    · exact absurd defined.baseRtt (by omega)
  · cases impossible

end VegasSender

namespace VegasConnection

open VegasSender

variable {connection next : VegasConnection} {samples : List Nat}

def recordSamples (connection : VegasConnection) : VegasAction → List Nat → List Nat
  | .congestionEvent latestRtt eventTime ackedPackets lostPackets, samples =>
      connection.sender.recordEvent latestRtt eventTime ackedPackets lostPackets samples
  | _, samples => samples

def SamplingStep : VegasConnection × List Nat → VegasAction → VegasConnection × List Nat →
    Prop :=
  Guarded (fun both => both.1.Enabled) (recording perform recordSamples)

theorem sampled_step {action : VegasAction} (sampled : connection.sender.Sampled samples)
    (enabled : connection.Enabled action) (result : connection.perform action = .ok next) :
    next.sender.Sampled (connection.recordSamples action samples) := by
  cases action with
  | packetSent packetNumber =>
      rw [packetSent_eq_ok result]
      exact { sampled with }
  | congestionEvent latestRtt eventTime ackedPackets lostPackets =>
      exact sampled.onCongestionEvent enabled.1 (congestionEvent_eq_ok result).1
  | setInitialCongestionWindowInPackets congestionWindow =>
      rw [setInitialCongestionWindowInPackets_eq_ok result]
      exact { sampled with }

/-- In every run, wherever an acknowledgement reaches the Vegas rule, the
minimum is the least of the samples recorded since the last reset, it is finite
if one of them is, and both divisors are at least one microsecond. -/
theorem vegas_rule_defined {initialWindow maxWindow : Nat} {actions : List VegasAction}
    (run : Run Step (create initialWindow maxWindow) actions connection) :
    ∃ samples,
      Run SamplingStep (create initialWindow maxWindow, []) actions (connection, samples) ∧
      ∀ latestRtt eventTime ackedPackets lostPackets,
        connection.Enabled (.congestionEvent latestRtt eventTime ackedPackets lostPackets) →
        Throughout (recording onPacketAcked recordAck)
          (fun both packet =>
            both.1.reachesVegasRule packet = true → both.1.RuleDefined both.2)
          (connection.sender.beforeAcks latestRtt eventTime ackedPackets lostPackets,
            recordRtt latestRtt ackedPackets samples)
          ackedPackets ∧
        connection.perform (.congestionEvent latestRtt eventTime ackedPackets lostPackets) ≠
          .error .divisionByZero := by
  obtain ⟨samples, recorded, sampled⟩ := run.recording_invariant
    (fun connection => connection.sender.Sampled) (sampled_create initialWindow maxWindow)
    fun _ _ _ _ holds step => sampled_step holds step.1 step.2
  refine ⟨samples, recorded, ?_⟩
  intro latestRtt eventTime ackedPackets lostPackets enabled
  constructor
  · exact throughout_of_invariant (fun both => both.1.Sampled both.2) ackedPackets
      (fun _ _ _ holds step => holds.recordedAck step)
      (fun _ _ holds reaches => holds.ruleDefined reaches)
      (sampled.beforeAcks eventTime ackedPackets lostPackets enabled.1)
  · intro result
    rcases perform_eq_error result with impossible | ⟨_, _, _, _, same, failed⟩
    · cases impossible
    · cases same
      exact sampled.onCongestionEvent_divides enabled.1 failed

def threeSamples (latestRtt : Nat) : List VegasAction :=
  [.packetSent 1, .packetSent 2, .packetSent 3, .packetSent 4,
    .congestionEvent latestRtt 1 [1] [], .congestionEvent latestRtt 2 [2] [],
    .congestionEvent latestRtt 3 [3] []]

/-- The fourth acknowledgement reaches the rule with three samples. -/
theorem vegas_rule_defined_round :
    ∃ connection : VegasConnection,
      Run Step (create 10 100) (threeSamples 100) connection ∧
      (connection.sender.beforeAcks 100 4 [4] []).reachesVegasRule 4 = true ∧
      connection.perform (.congestionEvent 100 4 [4] []) ≠ .error .divisionByZero := by
  have run : Run Step (create 10 100) _ _ := Run.of_execute (threeSamples 100) rfl
  obtain ⟨_, _, defined⟩ := vegas_rule_defined run
  exact ⟨_, run, rfl, (defined 100 4 [4] [] (by decide)).2⟩

/-- With the largest finite RTT every sample is infinite, and so is the minimum
where the rule is reached. -/
theorem vegas_rule_infinite :
    ∃ connection : VegasConnection,
      Run Step (create 10 100) (threeSamples (infiniteUs - 1)) connection ∧
      connection.Enabled (.congestionEvent (infiniteUs - 1) 4 [4] []) ∧
      (connection.sender.beforeAcks (infiniteUs - 1) 4 [4] []).reachesVegasRule 4 = true ∧
      (connection.sender.beforeAcks (infiniteUs - 1) 4 [4] []).minRtt = infiniteUs := by
  have run : Run Step (create 10 100) _ _ := Run.of_execute (threeSamples (infiniteUs - 1)) rfl
  exact ⟨_, run, by decide, rfl, rfl⟩

end VegasConnection

end Ns3Quic.CongestionControl
