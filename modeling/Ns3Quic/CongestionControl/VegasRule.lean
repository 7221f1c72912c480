import Ns3Quic.CongestionControl.VegasSamples

/-!
# How often the Vegas rule is applied

A round may end several times within one event, since the end of a round moves
the mark to the largest packet sent and a later acknowledgement of the same
event may reach it again.  The rule itself is applied with more than two
samples only.  Every reset takes the samples away and an event adds one, so
three events with acknowledgements lie between two applications.
-/

namespace Ns3Quic.CongestionControl

open TransitionSystem LoopRules

namespace VegasSender

variable {sender next : VegasSender} {packets : List Nat}

/-- The packets whose acknowledgements reach the Vegas rule, when they are
acknowledged one after the other.  The last one may fail a check of the
rule. -/
def applications : VegasSender → List Nat → List Nat
  | _, [] => []
  | sender, packet :: rest =>
      let later :=
        match sender.onPacketAcked packet with
        | .error _ => []
        | .ok next => applications next rest
      if sender.reachesVegasRule packet then packet :: later else later

theorem reachesVegasRule_iff {packet : Nat} :
    sender.reachesVegasRule packet = true ↔
      sender.vegasMode = true ∧
        (∃ beg, sender.begSendNext = some beg ∧ beg ≤ packet) ∧ 2 < sender.rttCount := by
  simp [reachesVegasRule, endsRound, Option.any_eq_true, and_assoc]

/-- What may happen to a round: it goes on, or it ends, which takes its samples
away and moves its mark to the largest packet sent. -/
structure RoundMoves (sender next : VegasSender) : Prop where
  sent : next.largestSentPacketNumber = sender.largestSentPacketNumber
  count : next.rttCount ≤ sender.rttCount
  beg : next.begSendNext = sender.begSendNext ∨
    next.begSendNext = sender.largestSentPacketNumber

structure RoundEnded (sender next : VegasSender) : Prop where
  sent : next.largestSentPacketNumber = sender.largestSentPacketNumber
  count : next.rttCount = 0
  beg : next.begSendNext = sender.largestSentPacketNumber

theorem RoundMoves.refl (sender : VegasSender) : RoundMoves sender sender :=
  ⟨rfl, le_refl _, Or.inl rfl⟩

theorem RoundMoves.trans {last : VegasSender} (first : RoundMoves sender next)
    (second : RoundMoves next last) : RoundMoves sender last := by
  refine ⟨second.sent.trans first.sent, second.count.trans first.count, ?_⟩
  rcases second.beg with same | moved
  · rw [same]
    exact first.beg
  · exact Or.inr (moved.trans first.sent)

theorem RoundEnded.trans {last : VegasSender} (first : RoundEnded sender next)
    (second : RoundMoves next last) : RoundEnded sender last := by
  refine ⟨second.sent.trans first.sent, Nat.le_zero.mp (first.count ▸ second.count), ?_⟩
  rcases second.beg with same | moved
  · exact same.trans first.beg
  · exact moved.trans first.sent

theorem AckStep.roundMoves {packet : Nat} (step : AckStep sender packet next) :
    RoundMoves sender next := by
  cases step with
  | reno => exact ⟨rfl, le_refl _, Or.inl rfl⟩
  | within => exact ⟨rfl, le_refl _, Or.inl rfl⟩
  | roundEnds => exact ⟨rfl, Nat.zero_le _, Or.inr rfl⟩

theorem AckStep.roundEnded {packet : Nat} (step : AckStep sender packet next)
    (reaches : sender.reachesVegasRule packet = true) : RoundEnded sender next := by
  obtain ⟨mode, ⟨beg, known, reached⟩, _⟩ := reachesVegasRule_iff.mp reaches
  cases step with
  | reno renoMode => exact absurd (mode.symm.trans renoMode) (by decide)
  | within other _ otherKnown ahead =>
      rw [known, Option.some.injEq] at otherKnown
      omega
  | roundEnds => exact ⟨rfl, rfl, rfl⟩

theorem roundMoves_acks (result : packets.foldlM onPacketAcked sender = .ok next) :
    RoundMoves sender next :=
  foldlM_invariant (fun _ state => RoundMoves sender state) packets
    (fun _ _ _ _ _ moved step => moved.trans (ackStep_of_ok step).roundMoves) 0
    (.refl sender) result

theorem roundMoves_switchMode (sender : VegasSender) (before : Bool) :
    RoundMoves sender (sender.switchMode before) := by
  unfold switchMode
  split
  next =>
    split
    next => exact ⟨rfl, le_refl _, Or.inl rfl⟩
    next => exact ⟨rfl, Nat.zero_le _, Or.inr rfl⟩
  next => exact .refl sender

/-- With at most two samples the rule is out of reach for the rest of an
event. -/
theorem applications_of_few (few : sender.rttCount ≤ 2) :
    sender.applications packets = [] := by
  induction packets generalizing sender with
  | nil => rfl
  | cons packet rest inductionHypothesis =>
      have misses : ¬ sender.reachesVegasRule packet = true := by
        intro reaches
        exact absurd (reachesVegasRule_iff.mp reaches).2.2 (not_lt.mpr few)
      rw [applications, if_neg misses]
      split
      next => rfl
      next after acked =>
        exact inductionHypothesis ((ackStep_of_ok acked).roundMoves.count.trans few)

/-- At most one acknowledgement of an event reaches the rule, and it finds the
samples and the mark with which the event came to its acknowledgements. -/
theorem applications_cases (sender : VegasSender) (packets : List Nat) :
    sender.applications packets = [] ∨
      ∃ packet ∈ packets, sender.applications packets = [packet] ∧ 2 < sender.rttCount ∧
        ∃ beg, sender.begSendNext = some beg ∧ beg ≤ packet := by
  induction packets generalizing sender with
  | nil => exact Or.inl rfl
  | cons packet rest inductionHypothesis =>
      rw [applications]
      by_cases reaches : sender.reachesVegasRule packet = true
      · -- the end of the round takes the samples away
        obtain ⟨_, marked, enough⟩ := reachesVegasRule_iff.mp reaches
        refine Or.inr ⟨packet, List.mem_cons_self, ?_, enough, marked⟩
        rw [if_pos reaches]
        split
        next => rfl
        next after acked =>
          have noSamples := ((ackStep_of_ok acked).roundEnded reaches).count
          rw [applications_of_few (by omega)]
      · rw [if_neg reaches]
        split
        next => exact Or.inl rfl
        next after acked =>
          have step := ackStep_of_ok acked
          rcases inductionHypothesis after with nothing | ⟨other, later, single, enough, marked⟩
          · exact Or.inl nothing
          · refine Or.inr ⟨other, List.mem_cons_of_mem _ later, single,
              enough.trans_le step.roundMoves.count, ?_⟩
            -- no round has ended, or there would be no samples
            cases step with
            | reno => exact marked
            | within => exact marked
            | roundEnds => exact absurd enough (Nat.not_lt_zero 2)

/-- If the rule was reached, the event leaves its acknowledgements with a new
round. -/
theorem roundEnded_acks (result : packets.foldlM onPacketAcked sender = .ok next)
    (applied : sender.applications packets ≠ []) : RoundEnded sender next := by
  induction packets generalizing sender with
  | nil => exact absurd rfl applied
  | cons packet rest inductionHypothesis =>
      rw [List.foldlM_cons] at result
      obtain ⟨after, acked, later⟩ := bind_eq_ok.mp result
      have step := ackStep_of_ok acked
      by_cases reaches : sender.reachesVegasRule packet = true
      · exact (step.roundEnded reaches).trans (roundMoves_acks later)
      · rw [applications, if_neg reaches, acked] at applied
        obtain ⟨sent, count, beg⟩ := inductionHypothesis later applied
        have same := step.frame.1
        exact ⟨sent.trans same, count, beg.trans same⟩

section Event

variable {latestRtt eventTime : Nat} {ackedPackets lostPackets : List Nat}

/-- An event comes to its acknowledgements with the old mark and, if it has
any, one more sample. -/
theorem beforeAcks_round (sender : VegasSender) (latestRtt eventTime : Nat)
    (ackedPackets lostPackets : List Nat) :
    (sender.beforeAcks latestRtt eventTime ackedPackets lostPackets).largestSentPacketNumber =
        sender.largestSentPacketNumber ∧
      (sender.beforeAcks latestRtt eventTime ackedPackets lostPackets).begSendNext =
        sender.begSendNext ∧
      (sender.beforeAcks latestRtt eventTime ackedPackets lostPackets).rttCount =
        if ackedPackets.isEmpty then sender.rttCount else sender.rttCount + 1 := by
  unfold beforeAcks
  have same := sameNumbers_collect sender latestRtt eventTime ackedPackets
  have mark (state : VegasSender) :
      (lostPackets.foldl onPacketLost state).begSendNext = state.begSendNext := by
    refine losses_invariant (fun other => other.begSendNext = state.begSendNext) ?_ rfl lostPackets
    intro other packet kept
    rcases other.onPacketLost_cases packet with ⟨unchanged, _⟩ | shape
    · rw [unchanged]
      exact kept
    · rw [shape]
      exact kept
  refine ⟨(afterLosses _ lostPackets).sent.trans same.sent, (mark _).trans same.beg, ?_⟩
  rw [(afterLosses _ lostPackets).rttCount]
  split
  next => rfl
  next => rfl

theorem roundMoves_event
    (result : sender.onCongestionEvent latestRtt eventTime ackedPackets lostPackets =
      .ok next) :
    RoundMoves (sender.beforeAcks latestRtt eventTime ackedPackets lostPackets) next := by
  obtain ⟨collected, after, rfl, loop, rfl⟩ := onCongestionEvent_eq_ok result
  exact (roundMoves_acks loop).trans (roundMoves_switchMode _ _)

theorem roundEnded_event
    (result : sender.onCongestionEvent latestRtt eventTime ackedPackets lostPackets =
      .ok next)
    (applied : (sender.beforeAcks latestRtt eventTime ackedPackets lostPackets).applications
      ackedPackets ≠ []) :
    RoundEnded (sender.beforeAcks latestRtt eventTime ackedPackets lostPackets) next := by
  obtain ⟨collected, after, rfl, loop, rfl⟩ := onCongestionEvent_eq_ok result
  exact (roundEnded_acks loop applied).trans (roundMoves_switchMode _ _)

end Event

end VegasSender

/-- An application of the Vegas rule: the event in which it is made, counting
those with acknowledgements, the packet whose acknowledgement triggers it, and
the packets sent by then. -/
structure Application where
  event : Nat
  packet : Nat
  sent : List Nat
  deriving DecidableEq

/-- The number of events with acknowledgements, and the applications of the
rule, the latest first. -/
structure RuleHistory where
  ackEvents : Nat
  applications : List Application
  deriving DecidableEq

def RuleHistory.eventNumber (history : RuleHistory) (ackedPackets : List Nat) : Nat :=
  if ackedPackets.isEmpty then history.ackEvents else history.ackEvents + 1

/-- Three events after the earlier application, and triggered by a packet that
is not below any sent by then. -/
def Application.Separated (later earlier : Application) : Prop :=
  earlier.event + 3 ≤ later.event ∧ ∀ packet ∈ earlier.sent, packet ≤ later.packet

namespace VegasConnection

open VegasSender

variable {connection next : VegasConnection} {history : RuleHistory}
  {latestRtt eventTime : Nat} {ackedPackets lostPackets : List Nat}

/-- The history after an action.  An event that fails a check of the rule has
applied it. -/
def recordApplications (connection : VegasConnection) : VegasAction → RuleHistory → RuleHistory
  | .congestionEvent latestRtt eventTime ackedPackets lostPackets, history =>
      let event := history.eventNumber ackedPackets
      let packets :=
        (connection.sender.beforeAcks latestRtt eventTime ackedPackets
          lostPackets).applications ackedPackets
      ⟨event, (packets.map fun packet => ⟨event, packet, connection.sent⟩).reverse ++
        history.applications⟩
  | _, history => history

def ApplyingStep : VegasConnection × RuleHistory → VegasAction →
    VegasConnection × RuleHistory → Prop :=
  Guarded (fun both => both.1.Enabled) (recording perform recordApplications)

theorem record_cases (connection : VegasConnection) (history : RuleHistory)
    (latestRtt eventTime : Nat) (ackedPackets lostPackets : List Nat) :
    ((connection.sender.beforeAcks latestRtt eventTime ackedPackets lostPackets).applications
        ackedPackets = [] ∧
      connection.recordApplications
          (.congestionEvent latestRtt eventTime ackedPackets lostPackets) history =
        ⟨history.eventNumber ackedPackets, history.applications⟩) ∨
    ∃ packet beg,
      (connection.sender.beforeAcks latestRtt eventTime ackedPackets lostPackets).applications
        ackedPackets = [packet] ∧
      2 < (connection.sender.beforeAcks latestRtt eventTime ackedPackets
        lostPackets).rttCount ∧
      connection.sender.begSendNext = some beg ∧ beg ≤ packet ∧
      connection.recordApplications
          (.congestionEvent latestRtt eventTime ackedPackets lostPackets) history =
        ⟨history.eventNumber ackedPackets,
          ⟨history.eventNumber ackedPackets, packet, connection.sent⟩ ::
            history.applications⟩ := by
  rcases applications_cases
      (connection.sender.beforeAcks latestRtt eventTime ackedPackets lostPackets) ackedPackets
    with nothing | ⟨packet, _, single, enough, beg, mark, reached⟩
  · refine Or.inl ⟨nothing, ?_⟩
    simp only [recordApplications, nothing, List.map_nil, List.reverse_nil, List.nil_append]
  · rw [(beforeAcks_round _ _ _ _ _).2.1] at mark
    refine Or.inr ⟨packet, beg, single, enough, mark, reached, ?_⟩
    simp only [recordApplications, single, List.map_cons, List.map_nil, List.reverse_singleton,
      List.singleton_append]

/-- The samples of the current round come from events after every application,
and the mark covers whatever had been sent by then. -/
structure Applied (connection : VegasConnection) (history : RuleHistory) : Prop where
  invariant : connection.Invariant
  counted : ∀ application ∈ history.applications,
    application.event + connection.sender.rttCount ≤ history.ackEvents
  marked : ∀ application ∈ history.applications, ∀ packet ∈ application.sent,
    AtMost (some packet) connection.sender.begSendNext
  sent : ∀ application ∈ history.applications, ∀ packet ∈ application.sent,
    packet ∈ connection.sent
  separated : history.applications.Pairwise Application.Separated

theorem applied_create (initialWindow maxWindow : Nat) :
    (create initialWindow maxWindow).Applied ⟨0, []⟩ where
  invariant := invariant_create initialWindow maxWindow
  counted := by simp
  marked := by simp
  sent := by simp
  separated := .nil

/-- The samples with which an event comes to its acknowledgements, counted from
an earlier application. -/
theorem Applied.counted_beforeAcks (applied : connection.Applied history)
    (latestRtt eventTime : Nat) (ackedPackets lostPackets : List Nat)
    {application : Application} (earlier : application ∈ history.applications) :
    application.event +
        (connection.sender.beforeAcks latestRtt eventTime ackedPackets lostPackets).rttCount ≤
      history.eventNumber ackedPackets := by
  have counted := applied.counted application earlier
  rw [(beforeAcks_round _ _ _ _ _).2.2]
  unfold RuleHistory.eventNumber
  split
  next => exact counted
  next => omega

theorem Applied.record_separated (applied : connection.Applied history)
    (latestRtt eventTime : Nat) (ackedPackets lostPackets : List Nat) :
    (connection.recordApplications
      (.congestionEvent latestRtt eventTime ackedPackets lostPackets)
      history).applications.Pairwise Application.Separated := by
  rcases connection.record_cases history latestRtt eventTime ackedPackets lostPackets with
    ⟨_, shape⟩ | ⟨packet, beg, _, enough, mark, reached, shape⟩
  · rw [shape]
    exact applied.separated
  · rw [shape]
    refine List.pairwise_cons.mpr ⟨?_, applied.separated⟩
    intro earlier membership
    constructor
    · exact (Nat.add_le_add_left enough _).trans
        (applied.counted_beforeAcks _ _ _ _ membership)
    · intro other otherSent
      obtain ⟨value, known, below⟩ :=
        applied.marked earlier membership other otherSent other rfl
      rw [mark, Option.some.injEq] at known
      exact below.trans (known ▸ reached)

theorem Applied.keep (applied : connection.Applied history) (invariant : next.Invariant)
    (count : next.sender.rttCount = connection.sender.rttCount)
    (mark : ∀ beg, connection.sender.begSendNext = some beg → next.sender.begSendNext = some beg)
    (sent : ∀ packet ∈ connection.sent, packet ∈ next.sent) : next.Applied history := by
  refine ⟨invariant, ?_, ?_, ?_, applied.separated⟩
  · rw [count]
    exact applied.counted
  · intro application membership packet packetSent value known
    obtain ⟨beg, marked, below⟩ :=
      applied.marked application membership packet packetSent value known
    exact ⟨beg, mark beg marked, below⟩
  · intro application membership packet packetSent
    exact sent packet (applied.sent application membership packet packetSent)

theorem Applied.congestionEvent (applied : connection.Applied history)
    (enabled : connection.Enabled
      (.congestionEvent latestRtt eventTime ackedPackets lostPackets))
    (result : connection.perform
      (.congestionEvent latestRtt eventTime ackedPackets lostPackets) = .ok next) :
    next.Applied (connection.recordApplications
      (.congestionEvent latestRtt eventTime ackedPackets lostPackets) history) := by
  have separated := applied.record_separated latestRtt eventTime ackedPackets lostPackets
  have invariant := applied.invariant.congestionEvent enabled result
  obtain ⟨performed, samePackets, _⟩ := congestionEvent_eq_ok result
  obtain ⟨sameSent, sameBeg, _⟩ :=
    beforeAcks_round connection.sender latestRtt eventTime ackedPackets lostPackets
  have moves := roundMoves_event performed
  -- whatever was sent is below the largest packet sent, the mark of a new round
  have covers : ∀ packet ∈ connection.sent,
      AtMost (some packet) connection.sender.begSendNext →
      AtMost (some packet) next.sender.begSendNext := by
    intro packet packetSent marked
    rcases moves.beg with same | moved
    · rw [same, sameBeg]
      exact marked
    · rw [moved, sameSent]
      exact applied.invariant.sent packet packetSent
  rcases connection.record_cases history latestRtt eventTime ackedPackets lostPackets with
    ⟨_, shape⟩ | ⟨packet, _, single, _, _, _, shape⟩
  · rw [shape] at separated ⊢
    refine ⟨invariant, ?_, ?_, ?_, separated⟩
    · intro application membership
      exact (Nat.add_le_add_left moves.count _).trans
        (applied.counted_beforeAcks _ _ _ _ membership)
    · intro application membership other otherSent
      exact covers other (applied.sent application membership other otherSent)
        (applied.marked application membership other otherSent)
    · rw [samePackets]
      exact applied.sent
  · have ended := roundEnded_event performed (by rw [single]; exact List.cons_ne_nil _ _)
    rw [shape] at separated ⊢
    refine ⟨invariant, ?_, ?_, ?_, separated⟩
    · intro application membership
      rw [ended.count]
      rcases List.mem_cons.mp membership with rfl | earlier
      · exact le_refl _
      · exact (Nat.le_add_right _ _).trans
          (applied.counted_beforeAcks latestRtt eventTime ackedPackets lostPackets earlier)
    · intro application membership other otherSent
      rw [ended.beg, sameSent]
      rcases List.mem_cons.mp membership with rfl | earlier
      · exact applied.invariant.sent other otherSent
      · exact applied.invariant.sent other (applied.sent application earlier other otherSent)
    · rw [samePackets]
      intro application membership
      rcases List.mem_cons.mp membership with rfl | earlier
      · exact fun _ packetSent => packetSent
      · exact applied.sent application earlier

theorem Applied.step (applied : connection.Applied history) {action : VegasAction}
    (step : Step connection action next) :
    next.Applied (connection.recordApplications action history) := by
  have invariant := applied.invariant.step step
  obtain ⟨enabled, result⟩ := step
  cases action with
  | packetSent packetNumber =>
      apply applied.keep invariant
      · rw [packetSent_eq_ok result]
      · intro beg known
        rw [packetSent_eq_ok result]
        simp [known]
      · intro packet packetSent
        rw [packetSent_eq_ok result]
        exact List.mem_cons_of_mem _ packetSent
  | congestionEvent latestRtt eventTime ackedPackets lostPackets =>
      exact applied.congestionEvent enabled result
  | setInitialCongestionWindowInPackets congestionWindow =>
      apply applied.keep invariant
      · rw [setInitialCongestionWindowInPackets_eq_ok result]
      · intro beg known
        rw [setInitialCongestionWindowInPackets_eq_ok result]
        exact known
      · intro packet packetSent
        rw [setInitialCongestionWindowInPackets_eq_ok result]
        exact packetSent

/-- In every run, an event applies the rule at most once, and an application
comes three events with acknowledgements after every earlier one and is
triggered by a packet that is not below any sent by then.  This includes the
application of an event that then fails. -/
theorem rule_applied_once_per_round {initialWindow maxWindow : Nat}
    {actions : List VegasAction}
    (run : Run Step (create initialWindow maxWindow) actions connection) :
    ∃ history,
      Run ApplyingStep (create initialWindow maxWindow, ⟨0, []⟩) actions
        (connection, history) ∧
      history.applications.Pairwise Application.Separated ∧
      ∀ latestRtt eventTime ackedPackets lostPackets,
        connection.Enabled (.congestionEvent latestRtt eventTime ackedPackets lostPackets) →
        ((connection.sender.beforeAcks latestRtt eventTime ackedPackets
          lostPackets).applications ackedPackets).length ≤ 1 ∧
        (connection.recordApplications
          (.congestionEvent latestRtt eventTime ackedPackets lostPackets)
          history).applications.Pairwise Application.Separated := by
  obtain ⟨history, recorded, applied⟩ := run.recording_invariant Applied
    (applied_create initialWindow maxWindow) fun _ _ _ _ holds step => holds.step step
  refine ⟨history, recorded, applied.separated, ?_⟩
  intro latestRtt eventTime ackedPackets lostPackets _
  refine ⟨?_, applied.record_separated latestRtt eventTime ackedPackets lostPackets⟩
  rcases connection.record_cases history latestRtt eventTime ackedPackets lostPackets with
    ⟨nothing, _⟩ | ⟨_, _, single, _⟩
  · rw [nothing]
    exact Nat.zero_le _
  · rw [single]
    exact le_refl _

def secondRound : List VegasAction :=
  threeSamples 100 ++
    [.congestionEvent 100 4 [4] [], .packetSent 5, .packetSent 6, .packetSent 7, .packetSent 8,
      .congestionEvent 100 5 [5] [], .congestionEvent 100 6 [6] [],
      .congestionEvent 100 7 [7] []]

/-- The acknowledgements of packets 4 and 8 apply the rule, in the fourth and
the eighth event. -/
theorem rule_applied_once_per_round_twice :
    (∃ connection : VegasConnection,
      Run ApplyingStep (create 10 100, ⟨0, []⟩)
        (secondRound ++ [.congestionEvent 100 8 [8] []])
        (connection, ⟨8, [⟨8, 8, [8, 7, 6, 5, 4, 3, 2, 1]⟩, ⟨4, 4, [4, 3, 2, 1]⟩]⟩)) ∧
    ∃ connection : VegasConnection,
      Run Step (create 10 100) secondRound connection ∧
      ((connection.sender.beforeAcks 100 8 [8] []).applications [8]).length ≤ 1 := by
  refine ⟨⟨_, Run.of_execute _ rfl⟩, ?_⟩
  have run : Run Step (create 10 100) _ _ := Run.of_execute secondRound rfl
  obtain ⟨_, _, _, once⟩ := rule_applied_once_per_round run
  exact ⟨_, run, (once 100 8 [8] [] (by decide)).1⟩

end VegasConnection

end Ns3Quic.CongestionControl
