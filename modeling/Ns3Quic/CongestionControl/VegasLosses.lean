import Ns3Quic.CongestionControl.VegasRounds

/-!
# Reductions of the Vegas window

A loss reduces the window unless the packet was sent before the last
reduction.  The reduction moves the mark to the largest packet sent, so it
covers every other loss among the packets sent so far: the order in which an
event reports its losses does not matter, and the next reduction waits for the
loss of a packet that is sent later.
-/

namespace Ns3Quic.CongestionControl

open TransitionSystem LoopRules

namespace VegasSender

variable {sender : VegasSender} {lostPackets : List Nat}

/-- `OnPacketLost` does not return at its guard. -/
def reduces (sender : VegasSender) (packetNumber : Nat) : Bool :=
  !sender.largestSentAtLastCutback.any fun cutback => decide (packetNumber ≤ cutback)

def reduced (sender : VegasSender) : VegasSender :=
  { sender with
    toVegasWindow := sender.toVegasWindow.cutBack
    largestSentAtLastCutback := sender.largestSentPacketNumber }

theorem onPacketLost_eq (sender : VegasSender) (packetNumber : Nat) :
    sender.onPacketLost packetNumber =
      if sender.reduces packetNumber then sender.reduced else sender := by
  unfold onPacketLost reduces
  split
  next covered => rw [covered, Bool.not_true, if_neg Bool.false_ne_true]
  next uncovered =>
    rw [Bool.not_eq_true] at uncovered
    rw [uncovered, Bool.not_false, if_pos rfl]
    rfl

theorem reduces_iff {packetNumber : Nat} :
    sender.reduces packetNumber = true ↔
      ∀ cutback, sender.largestSentAtLastCutback = some cutback → cutback < packetNumber := by
  unfold reduces
  cases sender.largestSentAtLastCutback with
  | none => simp
  | some cutback => simp

theorem reduces_reduced {packetNumber : Nat}
    (sent : AtMost (some packetNumber) sender.largestSentPacketNumber) :
    sender.reduced.reduces packetNumber = false := by
  obtain ⟨bound, largest, below⟩ := sent packetNumber rfl
  rw [Bool.eq_false_iff, ne_eq, reduces_iff]
  intro exceeds
  exact absurd (exceeds bound largest) (not_lt.mpr below)

/-- The packets whose losses reduce the window, when they are lost one after
the other. -/
def reductions : VegasSender → List Nat → List Nat
  | _, [] => []
  | sender, packet :: rest =>
      if sender.reduces packet then
        packet :: reductions (sender.onPacketLost packet) rest
      else
        reductions (sender.onPacketLost packet) rest

theorem losses_of_covered
    (covered : ∀ packet ∈ lostPackets, sender.reduces packet = false) :
    lostPackets.foldl onPacketLost sender = sender ∧ sender.reductions lostPackets = [] := by
  induction lostPackets with
  | nil => exact ⟨rfl, rfl⟩
  | cons packet rest inductionHypothesis =>
      have uncut := covered packet List.mem_cons_self
      rw [List.foldl_cons, reductions, onPacketLost_eq, uncut, if_neg Bool.false_ne_true,
        if_neg Bool.false_ne_true]
      exact inductionHypothesis fun other membership =>
        covered other (List.mem_cons_of_mem _ membership)

/-- The losses of packets that were sent amount to one reduction or none: the
first packet that the mark does not cover causes it. -/
theorem losses_of_sent
    (sent : ∀ packet ∈ lostPackets, AtMost (some packet) sender.largestSentPacketNumber) :
    lostPackets.foldl onPacketLost sender =
        (if lostPackets.any sender.reduces then sender.reduced else sender) ∧
      sender.reductions lostPackets = (lostPackets.find? sender.reduces).toList := by
  induction lostPackets with
  | nil => exact ⟨rfl, rfl⟩
  | cons packet rest inductionHypothesis =>
      have sentRest : ∀ other ∈ rest, AtMost (some other) sender.largestSentPacketNumber :=
        fun other membership => sent other (List.mem_cons_of_mem _ membership)
      rw [List.foldl_cons, reductions, onPacketLost_eq, List.any_cons, List.find?_cons]
      cases reduction : sender.reduces packet with
      | true =>
          obtain ⟨unchanged, nothing⟩ := losses_of_covered fun other membership =>
            reduces_reduced (sentRest other membership)
          simp only [Bool.true_or, if_true, Option.toList_some]
          exact ⟨unchanged, by rw [nothing]⟩
      | false =>
          simp only [Bool.false_or, Bool.false_eq_true, if_false]
          exact inductionHypothesis sentRest

end VegasSender

/-- A reduction of the window: the packet whose loss caused it and the packets
sent by then. -/
structure Reduction where
  packet : Nat
  sent : List Nat
  deriving DecidableEq

namespace VegasConnection

open VegasSender

variable {connection next : VegasConnection} {history : List Reduction}

def recordReductions (connection : VegasConnection) :
    VegasAction → List Reduction → List Reduction
  | .congestionEvent latestRtt eventTime ackedPackets lostPackets, history =>
      let sender :=
        if ackedPackets.isEmpty then connection.sender
        else connection.sender.collectRtt latestRtt eventTime
      ((sender.reductions lostPackets).map fun packet => ⟨packet, connection.sent⟩).reverse ++
        history
  | _, history => history

/-- Every reduction was caused by a packet that had been sent, and the mark
covers whatever had been sent by then. -/
structure Marked (connection : VegasConnection) (history : List Reduction) : Prop where
  invariant : connection.Invariant
  caused : ∀ reduction ∈ history, reduction.packet ∈ reduction.sent
  covered : ∀ reduction ∈ history, ∀ packet ∈ reduction.sent,
    AtMost (some packet) connection.sender.largestSentAtLastCutback
  separated : history.Pairwise fun later earlier => later.packet ∉ earlier.sent

theorem marked_create (initialWindow maxWindow : Nat) :
    (create initialWindow maxWindow).Marked [] where
  invariant := invariant_create initialWindow maxWindow
  caused := by simp
  covered := by simp
  separated := .nil

theorem Marked.keep (marked : connection.Marked history) (invariant : next.Invariant)
    (sameMark : next.sender.largestSentAtLastCutback =
      connection.sender.largestSentAtLastCutback) : next.Marked history :=
  { marked with
    invariant := invariant
    covered := by rw [sameMark]; exact marked.covered }

theorem Marked.reduction (marked : connection.Marked history) (invariant : next.Invariant)
    {packet : Nat} (sent : packet ∈ connection.sent)
    (uncovered : connection.sender.reduces packet = true)
    (moved : next.sender.largestSentAtLastCutback =
      connection.sender.largestSentPacketNumber) :
    next.Marked (⟨packet, connection.sent⟩ :: history) := by
  refine ⟨invariant, ?_, ?_, List.pairwise_cons.mpr ⟨?_, marked.separated⟩⟩
  · intro reduction membership
    rcases List.mem_cons.mp membership with rfl | earlier
    · exact sent
    · exact marked.caused reduction earlier
  · rw [moved]
    intro reduction membership other otherSent
    rcases List.mem_cons.mp membership with rfl | earlier
    · exact marked.invariant.sent other otherSent
    · intro value known
      obtain ⟨cutback, mark, below⟩ := marked.covered reduction earlier other otherSent value known
      obtain ⟨bound, largest, higher⟩ := marked.invariant.numbers.cutback cutback mark
      exact ⟨bound, largest, below.trans higher⟩
  · intro earlier membership sentEarlier
    obtain ⟨cutback, mark, below⟩ :=
      marked.covered earlier membership packet sentEarlier packet rfl
    exact absurd (reduces_iff.mp uncovered cutback mark) (not_lt.mpr below)

theorem congestionEvent_mark {latestRtt eventTime : Nat} {ackedPackets lostPackets : List Nat}
    (result : connection.perform
      (.congestionEvent latestRtt eventTime ackedPackets lostPackets) = .ok next) :
    next.sender.largestSentAtLastCutback =
      (lostPackets.foldl onPacketLost (if ackedPackets.isEmpty then connection.sender
        else connection.sender.collectRtt latestRtt eventTime)).largestSentAtLastCutback := by
  obtain ⟨collected, after, rfl, loop, shape⟩ :=
    onCongestionEvent_eq_ok (congestionEvent_eq_ok result).1
  rw [shape]
  exact (after.switchMode_window _).2.2.trans (acks_frame loop).2.1

theorem Marked.congestionEvent (marked : connection.Marked history)
    {latestRtt eventTime : Nat} {ackedPackets lostPackets : List Nat}
    (enabled : connection.Enabled
      (.congestionEvent latestRtt eventTime ackedPackets lostPackets))
    (result : connection.perform
      (.congestionEvent latestRtt eventTime ackedPackets lostPackets) = .ok next) :
    next.Marked (connection.recordReductions
      (.congestionEvent latestRtt eventTime ackedPackets lostPackets) history) := by
  have invariant := marked.invariant.congestionEvent enabled result
  have mark := congestionEvent_mark result
  have same := sameNumbers_collect connection.sender latestRtt eventTime ackedPackets
  unfold recordReductions
  dsimp only
  generalize (if ackedPackets.isEmpty then connection.sender
    else connection.sender.collectRtt latestRtt eventTime) = collected at mark same ⊢
  have sent : ∀ packet ∈ lostPackets, AtMost (some packet) collected.largestSentPacketNumber := by
    intro packet membership
    rw [same.sent]
    exact marked.invariant.sent packet (enabled.2.2 packet membership)
  obtain ⟨after, caused⟩ := losses_of_sent sent
  rw [caused]
  cases found : lostPackets.find? collected.reduces with
  | none =>
      have covered : lostPackets.any collected.reduces = false := by
        rw [List.any_eq_false]
        exact List.find?_eq_none.mp found
      rw [after, covered, if_neg Bool.false_ne_true, same.cutback] at mark
      exact marked.keep invariant mark
  | some packet =>
      have lost := List.mem_of_find?_eq_some found
      have uncovered : collected.reduces packet = true := List.find?_some found
      rw [after, if_pos (List.any_eq_true.mpr ⟨packet, lost, uncovered⟩)] at mark
      refine marked.reduction invariant (enabled.2.2 packet lost) ?_ (mark.trans same.sent)
      unfold VegasSender.reduces at uncovered ⊢
      rwa [same.cutback] at uncovered

theorem Marked.step (marked : connection.Marked history) {action : VegasAction}
    (step : Step connection action next) :
    next.Marked (connection.recordReductions action history) := by
  have invariant := marked.invariant.step step
  obtain ⟨enabled, result⟩ := step
  cases action with
  | packetSent packet =>
      apply marked.keep invariant
      rw [packetSent_eq_ok result]
  | congestionEvent latestRtt eventTime ackedPackets lostPackets =>
      exact marked.congestionEvent enabled result
  | setInitialCongestionWindowInPackets congestionWindow =>
      apply marked.keep invariant
      rw [setInitialCongestionWindowInPackets_eq_ok result]

def RecordingStep : VegasConnection × List Reduction → VegasAction →
    VegasConnection × List Reduction → Prop :=
  Guarded (fun both => both.1.Enabled) (recording perform recordReductions)

def Uncovered (sender : VegasSender) (lostPackets : List Nat) : Prop :=
  ∃ packet ∈ lostPackets, ∀ cutback,
    sender.largestSentAtLastCutback = some cutback → cutback < packet

theorem uncovered_iff (sender : VegasSender) (lostPackets : List Nat) :
    Uncovered sender lostPackets ↔ lostPackets.any sender.reduces = true := by
  rw [List.any_eq_true]
  exact exists_congr fun packet => and_congr_right fun _ => reduces_iff.symm

/-- In every state of every run, losses of packets that were sent reduce the
window once if the mark of the last reduction does not cover all of them, and
not at all otherwise, in whatever order they are reported.  A reduction is
always caused by the loss of a packet sent after every earlier reduction. -/
theorem one_reduction_per_window {initialWindow maxWindow : Nat} {actions : List VegasAction}
    (run : Run Step (create initialWindow maxWindow) actions connection) :
    (∀ lostPackets reordered : List Nat, (∀ packet ∈ lostPackets, packet ∈ connection.sent) →
      reordered.Perm lostPackets →
      (Uncovered connection.sender lostPackets →
        reordered.foldl onPacketLost connection.sender =
          { connection.sender with
            congestionWindow := max (connection.sender.congestionWindow / 2)
              kDefaultMinimumCongestionWindow
            slowstartThreshold := max (connection.sender.congestionWindow / 2)
              kDefaultMinimumCongestionWindow
            numAckedPackets := 0
            largestSentAtLastCutback := connection.sender.largestSentPacketNumber }) ∧
      (¬Uncovered connection.sender lostPackets →
        reordered.foldl onPacketLost connection.sender = connection.sender)) ∧
    ∃ history, Run RecordingStep (create initialWindow maxWindow, []) actions
        (connection, history) ∧
      (∀ reduction ∈ history, reduction.packet ∈ reduction.sent) ∧
      history.Pairwise fun later earlier => later.packet ∉ earlier.sent := by
  constructor
  · intro lostPackets reordered sent permuted
    have inv := invariant_of_run run
    have sentReordered : ∀ packet ∈ reordered,
        AtMost (some packet) connection.sender.largestSentPacketNumber :=
      fun packet membership => inv.sent packet (sent packet (permuted.mem_iff.mp membership))
    rw [(losses_of_sent sentReordered).1, uncovered_iff, ← permuted.any_eq]
    exact ⟨fun uncovered => if_pos uncovered, fun covered => if_neg covered⟩
  · obtain ⟨history, recorded, marked⟩ := run.recording_invariant Marked
      (marked_create initialWindow maxWindow) fun _ _ _ _ holds step => holds.step step
    exact ⟨history, recorded, marked.caused, marked.separated⟩

/-- Two losses in one event, and the loss of a later packet. -/
theorem one_reduction_per_window_twice :
    ∃ connection : VegasConnection,
      Run Step (create 20 100)
        [.packetSent 1, .packetSent 2, .packetSent 3, .congestionEvent 100 1 [3] [2, 1],
          .packetSent 4, .congestionEvent 100 2 [] [4]] connection ∧
      ∃ history, Run RecordingStep (create 20 100, [])
          [.packetSent 1, .packetSent 2, .packetSent 3, .congestionEvent 100 1 [3] [2, 1],
            .packetSent 4, .congestionEvent 100 2 [] [4]] (connection, history) ∧
        history.Pairwise fun later earlier => later.packet ∉ earlier.sent := by
  have run : Run Step (create 20 100) _ _ := Run.of_execute
    [.packetSent 1, .packetSent 2, .packetSent 3, .congestionEvent 100 1 [3] [2, 1],
      .packetSent 4, .congestionEvent 100 2 [] [4]] rfl
  obtain ⟨history, recorded, _, separated⟩ := (one_reduction_per_window run).2
  exact ⟨_, run, history, recorded, separated⟩

end VegasConnection

end Ns3Quic.CongestionControl
