import Ns3Quic.CongestionControl.VegasRounds

/-!
# Increases of the Vegas window

An acknowledgement adds a segment in five places of the source: in slow start
within a round, at the end of a round with few samples, at the end of a round
in slow start and in congestion avoidance, and in Reno mode.  `grows` says when
that happens, and `Moved` what an acknowledgement does to the window and the
threshold otherwise.

Once the window has passed the threshold it stays there, unless an increase
wraps.  Nothing keeps it below `max_congestion_window_`, which no branch reads.
What bounds it is that an acknowledged packet adds at most one segment, so that
the window at some moment and the number of packets acknowledged from then on
say how large it can become.
-/

namespace Ns3Quic.CongestionControl

open TransitionSystem LoopRules

namespace VegasWindow

variable {window next : VegasWindow} {grows : Bool}

def renoGrows (window : VegasWindow) : Bool :=
  window.inSlowStart ||
    decide (window.congestionWindow ≤
      mulU64 (addU64 window.numAckedPackets 1) kDefaultTCPMSS)

def adjustGrows (window : VegasWindow) (baseRtt minRtt : Nat) : Bool :=
  if window.inSlowStart then
    decide (window.diff baseRtt minRtt ≤ kGammaCongestionWindow)
  else
    decide (window.diff baseRtt minRtt < kAlphaCongestionWindow)

/-- What an acknowledgement does to the window and the threshold before the
window is clamped. -/
inductive Moved (window : VegasWindow) (grows : Bool) (next : VegasWindow) : Prop where
  | grown : grows = true →
      next.congestionWindow = window.grow.congestionWindow →
      next.slowstartThreshold = window.slowstartThreshold → Moved window grows next
  | kept : grows = false → next.congestionWindow = window.congestionWindow →
      next.slowstartThreshold = window.slowstartThreshold → Moved window grows next
  | lowered : grows = false → next.congestionWindow ≤ window.congestionWindow →
      next.slowstartThreshold = next.congestionWindow → Moved window grows next

theorem grow_congestionWindow (window : VegasWindow) :
    window.grow.congestionWindow = addU64 window.congestionWindow kDefaultTCPMSS := by
  unfold grow
  rfl

theorem grow_slowstartThreshold (window : VegasWindow) :
    window.grow.slowstartThreshold = window.slowstartThreshold := by
  unfold grow
  rfl

theorem moved_increaseAsReno (window : VegasWindow) :
    window.Moved window.renoGrows window.increaseCongestionWindowAsReno := by
  unfold increaseCongestionWindowAsReno renoGrows
  split
  next slow => exact .grown (by rw [slow, Bool.true_or]) rfl window.grow_slowstartThreshold
  next avoidance =>
    rw [Bool.not_eq_true] at avoidance
    rw [avoidance, Bool.false_or]
    dsimp only
    split
    next enough =>
      refine .grown (decide_eq_true enough) rfl ?_
      dsimp only [grow]
    next early => exact .kept (decide_eq_false early) rfl rfl

theorem moved_adjust (window : VegasWindow) (baseRtt minRtt : Nat) :
    window.Moved (window.adjustGrows baseRtt minRtt) (window.adjust baseRtt minRtt) := by
  unfold adjust adjustGrows
  dsimp only
  by_cases slow : window.inSlowStart = true
  · rw [if_pos slow]
    split
    next leaves =>
      exact .lowered (decide_eq_false (not_le.mpr leaves.1)) (min_le_left _ _) rfl
    next stays =>
      exact .grown (decide_eq_true (not_lt.mp fun leaves => stays ⟨leaves, slow⟩)) rfl
        window.grow_slowstartThreshold
  · rw [if_neg slow, if_neg (fun leaves => slow leaves.2), if_neg slow]
    split
    next tooFast =>
      -- beyond beta is beyond alpha
      have noGrowth : ¬window.diff baseRtt minRtt < kAlphaCongestionWindow := by
        unfold kAlphaCongestionWindow kBetaCongestionWindow at *
        omega
      split
      next => exact .lowered (decide_eq_false noGrowth) (Nat.sub_le _ _) rfl
      next => exact .kept (decide_eq_false noGrowth) rfl rfl
    next =>
      split
      next tooSlow => exact .grown (decide_eq_true tooSlow) rfl window.grow_slowstartThreshold
      next holds => exact .kept (decide_eq_false holds) rfl rfl

theorem Moved.congestionWindow_le (moved : window.Moved grows next) {limit : Nat}
    (bound : window.congestionWindow ≤ limit)
    (room : grows = true → window.congestionWindow + kDefaultTCPMSS ≤ limit) :
    next.congestionWindow ≤ limit := by
  cases moved with
  | grown grows grown _ =>
      rw [grown, grow_congestionWindow]
      exact (Nat.mod_le _ _).trans (room grows)
  | kept _ same _ =>
      rw [same]
      exact bound
  | lowered _ smaller _ => exact smaller.trans bound

theorem Moved.bounded (moved : window.Moved grows next)
    (bounded : window.congestionWindow < 2 ^ 64) : next.congestionWindow < 2 ^ 64 := by
  cases moved with
  | grown _ grown _ =>
      rw [grown, grow_congestionWindow]
      exact addU64_lt _ _
  | kept _ same _ =>
      rw [same]
      exact bounded
  | lowered _ smaller _ => exact smaller.trans_lt bounded

theorem Moved.slowstartThreshold_le (moved : window.Moved grows next)
    (passed : window.slowstartThreshold ≤ window.congestionWindow)
    (fits : grows = true → window.congestionWindow + kDefaultTCPMSS < 2 ^ 64) :
    next.slowstartThreshold ≤ next.congestionWindow := by
  cases moved with
  | grown grows grown sameThreshold =>
      rw [grown, grow_congestionWindow, sameThreshold, addU64_of_lt (fits grows)]
      exact Nat.le_add_right_of_le passed
  | kept _ same sameThreshold =>
      rw [same, sameThreshold]
      exact passed
  | lowered _ _ moves => exact moves.le

end VegasWindow

namespace VegasSender

variable {sender next : VegasSender}

/-- `OnPacketAcked` executes `congestion_window_ += kDefaultTCPMSS`. -/
def grows (sender : VegasSender) (packet : Nat) : Bool :=
  if !sender.vegasMode then
    sender.toVegasWindow.renoGrows
  else if sender.begSendNext.any fun beg => decide (beg ≤ packet) then
    if sender.rttCount ≤ 2 then
      sender.toVegasWindow.renoGrows
    else
      sender.toVegasWindow.adjustGrows sender.baseRttFilter.getBest sender.minRtt
  else
    sender.inSlowStart

theorem moved_roundEnd {window : VegasWindow} (ended : sender.roundEnd = .ok window) :
    sender.toVegasWindow.Moved
      (if sender.rttCount ≤ 2 then sender.toVegasWindow.renoGrows
        else sender.toVegasWindow.adjustGrows sender.baseRttFilter.getBest sender.minRtt)
      window := by
  unfold roundEnd at ended
  split at ended
  next few =>
    rw [if_pos few, ← Except.ok.inj ended]
    exact sender.toVegasWindow.moved_increaseAsReno
  next enough =>
    rw [if_neg enough, VegasWindow.checkedAdjust_eq_ok ended]
    exact sender.toVegasWindow.moved_adjust _ _

theorem AckStep.moved {packet : Nat} (step : AckStep sender packet next) :
    ∃ window, sender.toVegasWindow.Moved (sender.grows packet) window ∧
      (next.toVegasWindow = window ∨ next.toVegasWindow = window.clamp) := by
  unfold VegasSender.grows
  cases step with
  | reno renoMode =>
      rw [renoMode]
      exact ⟨_, sender.toVegasWindow.moved_increaseAsReno, Or.inl rfl⟩
  | within beg vegasMode known ahead =>
      rw [vegasMode, known]
      refine ⟨_, ?_, Or.inr rfl⟩
      have early : decide (beg ≤ packet) = false := decide_eq_false (not_le.mpr ahead)
      simp only [Bool.not_true, Bool.false_eq_true, if_false, Option.any_some, early]
      cases slow : sender.inSlowStart with
      | true => exact .grown rfl rfl sender.toVegasWindow.grow_slowstartThreshold
      | false => exact .kept rfl rfl rfl
  | roundEnds beg window vegasMode known reached ended =>
      rw [vegasMode, known]
      refine ⟨window, ?_, Or.inr rfl⟩
      have due : decide (beg ≤ packet) = true := decide_eq_true reached
      simp only [Bool.not_true, Bool.false_eq_true, if_false, Option.any_some, due, if_true]
      exact moved_roundEnd ended

def beforeAcks (sender : VegasSender) (latestRtt eventTime : Nat)
    (ackedPackets lostPackets : List Nat) : VegasSender :=
  lostPackets.foldl onPacketLost
    (if ackedPackets.isEmpty then sender else sender.collectRtt latestRtt eventTime)

section Event

variable {latestRtt eventTime : Nat} {ackedPackets lostPackets : List Nat}

/-- A property of the window that reductions and clamps keep, and
acknowledgements under a requirement, is kept by an event whose
acknowledgements meet the requirement. -/
theorem onCongestionEvent_window (property : VegasWindow → Prop)
    {requirement : VegasSender → Nat → Prop}
    (cuts : ∀ window, property window → property window.cutBack)
    (clamps : ∀ window, property window → property window.clamp)
    (moves : ∀ (state : VegasSender) packet window, property state.toVegasWindow →
      requirement state packet → state.toVegasWindow.Moved (state.grows packet) window →
      property window)
    (throughout : Throughout onPacketAcked requirement
      (sender.beforeAcks latestRtt eventTime ackedPackets lostPackets) ackedPackets)
    (initially : property sender.toVegasWindow)
    (result : sender.onCongestionEvent latestRtt eventTime ackedPackets lostPackets =
      .ok next) : property next.toVegasWindow := by
  obtain ⟨collected, after, rfl, loop, rfl⟩ := onCongestionEvent_eq_ok result
  have same := sameNumbers_collect sender latestRtt eventTime ackedPackets
  have reduced : property
      (sender.beforeAcks latestRtt eventTime ackedPackets lostPackets).toVegasWindow := by
    refine losses_invariant (fun state => property state.toVegasWindow) ?_
      (by rw [same.window]; exact initially) lostPackets
    intro state packet holds
    rcases state.onPacketLost_cases packet with ⟨unchanged, _⟩ | shape
    · rw [unchanged]
      exact holds
    · rw [shape]
      exact cuts _ holds
  rw [(after.switchMode_window _).1]
  refine foldlM_throughout (fun state => property state.toVegasWindow) ackedPackets ?_
    throughout reduced loop
  intro state packet other holds required step
  obtain ⟨window, moved, shape⟩ := (ackStep_of_ok step).moved
  have afterMove := moves state packet window holds required moved
  rcases shape with plain | clamped
  · rw [plain]
    exact afterMove
  · rw [clamped]
    exact clamps _ afterMove

theorem onCongestionEvent_le {limit : Nat} (least : kDefaultMinimumCongestionWindow ≤ limit)
    (bound : sender.congestionWindow ≤ limit)
    (result : sender.onCongestionEvent latestRtt eventTime ackedPackets lostPackets = .ok next) :
    next.congestionWindow ≤ limit + kDefaultTCPMSS * ackedPackets.length := by
  obtain ⟨collected, after, rfl, loop, rfl⟩ := onCongestionEvent_eq_ok result
  have same := sameNumbers_collect sender latestRtt eventTime ackedPackets
  have reduced : (lostPackets.foldl onPacketLost (if ackedPackets.isEmpty then sender
      else sender.collectRtt latestRtt eventTime)).congestionWindow ≤ limit := by
    refine losses_invariant (fun state => state.congestionWindow ≤ limit) ?_
      (by rw [same.window]; exact bound) lostPackets
    intro state packet holds
    rcases state.onPacketLost_cases packet with ⟨unchanged, _⟩ | shape
    · rw [unchanged]
      exact holds
    · rw [shape]
      exact max_le ((Nat.div_le_self _ _).trans holds) least
  rw [(after.switchMode_window _).1]
  have counted := foldlM_invariant
    (fun count (state : VegasSender) => state.congestionWindow ≤ limit + kDefaultTCPMSS * count)
    ackedPackets ?_ 0 reduced loop
  · simpa using counted
  · intro count state packet other _ holds step
    obtain ⟨window, moved, shape⟩ := (ackStep_of_ok step).moved
    have grown : window.congestionWindow ≤ limit + kDefaultTCPMSS * (count + 1) := by
      refine moved.congestionWindow_le ?_ fun _ => ?_
      · exact holds.trans (by rw [Nat.mul_succ]; omega)
      · rw [Nat.mul_succ]
        omega
    rcases shape with plain | clamped
    · rw [plain]
      exact grown
    · rw [clamped]
      exact max_le grown (Nat.le_add_right_of_le least)

structure Resting (beg : Option Nat) (limit : Nat) (sender : VegasSender) : Prop where
  mode : sender.vegasMode = true
  beg : sender.begSendNext = beg
  avoidance : sender.slowstartThreshold ≤ sender.congestionWindow
  window : sender.congestionWindow ≤ limit

theorem Resting.onPacketLost {beg : Option Nat} {limit : Nat} (resting : Resting beg limit sender)
    (least : kDefaultMinimumCongestionWindow ≤ limit) (packet : Nat) :
    Resting beg limit (sender.onPacketLost packet) := by
  rcases sender.onPacketLost_cases packet with ⟨unchanged, _⟩ | shape
  · rw [unchanged]
    exact resting
  · rw [shape]
    exact ⟨resting.mode, resting.beg, le_rfl,
      max_le ((Nat.div_le_self _ _).trans resting.window) least⟩

theorem Resting.ackStep {beg : Option Nat} {limit packet : Nat}
    (resting : Resting beg limit sender) (least : kDefaultMinimumCongestionWindow ≤ limit)
    (ahead : ∀ number ∈ beg, packet < number) (step : AckStep sender packet next) :
    Resting beg limit next := by
  cases step with
  | reno renoMode => cases resting.mode.symm.trans renoMode
  | within number mode known before =>
      have avoidance : sender.inSlowStart = false :=
        VegasWindow.inSlowStart_eq_false_iff.mpr resting.avoidance
      refine ⟨resting.mode, resting.beg, ?_, ?_⟩
      · simp only [avoidance, Bool.false_eq_true, if_false]
        exact resting.avoidance.trans (le_max_left _ _)
      · simp only [avoidance, Bool.false_eq_true, if_false]
        exact max_le resting.window least
  | roundEnds number window mode known reached ended =>
      exact absurd (ahead number (resting.beg.symm.trans known)) (not_lt.mpr reached)

theorem onCongestionEvent_le_of_quiet {limit : Nat}
    (least : kDefaultMinimumCongestionWindow ≤ limit) (mode : sender.vegasMode = true)
    (avoidance : sender.inSlowStart = false)
    (ahead : ∀ packet ∈ ackedPackets, ∀ beg ∈ sender.begSendNext, packet < beg)
    (bound : sender.congestionWindow ≤ limit)
    (result : sender.onCongestionEvent latestRtt eventTime ackedPackets lostPackets = .ok next) :
    next.congestionWindow ≤ limit := by
  obtain ⟨collected, after, rfl, loop, rfl⟩ := onCongestionEvent_eq_ok result
  have same := sameNumbers_collect sender latestRtt eventTime ackedPackets
  have threshold : sender.slowstartThreshold ≤ sender.congestionWindow :=
    VegasWindow.inSlowStart_eq_false_iff.mp avoidance
  have reduced := losses_invariant (Resting sender.begSendNext limit)
    (fun state packet holds => Resting.onPacketLost holds least packet)
    ⟨same.mode.trans mode, same.beg, by rw [same.window]; exact threshold,
      by rw [same.window]; exact bound⟩ lostPackets
  rw [(after.switchMode_window _).1]
  have rested := foldlM_invariant (fun _ => Resting sender.begSendNext limit) ackedPackets
    (fun _ _ packet _ member holds step =>
      Resting.ackStep holds least (ahead packet member) (ackStep_of_ok step)) 0 reduced loop
  exact rested.window

end Event

/-- `OnRetransmissionTimeout` has an empty body. -/
def onRetransmissionTimeout (sender : VegasSender) (_packetsRetransmitted : Bool) :
    VegasSender :=
  sender

end VegasSender

namespace VegasConnection

open VegasSender

variable {connection next first last : VegasConnection}

def EachIncrease (requirement : VegasSender → Prop) (connection : VegasConnection) :
    VegasAction → Prop
  | .congestionEvent latestRtt eventTime ackedPackets lostPackets =>
      Throughout onPacketAcked
        (fun sender packet => sender.grows packet = true → requirement sender)
        (connection.sender.beforeAcks latestRtt eventTime ackedPackets lostPackets)
        ackedPackets
  | _ => True

instance (requirement : VegasSender → Prop) [DecidablePred requirement]
    (connection : VegasConnection) (action : VegasAction) :
    Decidable (connection.EachIncrease requirement action) :=
  match action with
  | .congestionEvent _ _ _ _ => inferInstanceAs (Decidable (Throughout _ _ _ _))
  | .packetSent _ | .setInitialCongestionWindowInPackets _ => inferInstanceAs (Decidable True)

/-! ## The threshold -/

def FittingStep : VegasConnection → VegasAction → VegasConnection → Prop :=
  Guarded (EachIncrease fun sender => sender.congestionWindow + kDefaultTCPMSS < 2 ^ 64) perform

theorem passed_step {action : VegasAction}
    (passed : connection.sender.slowstartThreshold ≤ connection.sender.congestionWindow)
    (step : FittingStep connection action next) :
    next.sender.slowstartThreshold ≤ next.sender.congestionWindow := by
  obtain ⟨fits, result⟩ := step
  cases action with
  | packetSent packetNumber =>
      rw [packetSent_eq_ok result]
      exact passed
  | congestionEvent latestRtt eventTime ackedPackets lostPackets =>
      exact onCongestionEvent_window
        (fun window => window.slowstartThreshold ≤ window.congestionWindow)
        (fun _ _ => le_refl _) (fun _ holds => holds.trans (le_max_left _ _))
        (fun _ _ _ holds required moved => moved.slowstartThreshold_le holds required)
        fits passed (congestionEvent_eq_ok result).1
  | setInitialCongestionWindowInPackets congestionWindow =>
      rw [setInitialCongestionWindowInPackets_eq_ok result]
      dsimp only
      rw [if_neg (Bool.not_eq_true _ ▸ VegasWindow.inSlowStart_eq_false_iff.mpr passed)]
      exact passed

/-- Once the window has reached the threshold it stays there, whatever happens
to the connection, as long as the window stays within 64 bits. -/
theorem slow_start_not_reentered {actions : List VegasAction}
    (run : Run FittingStep first actions last)
    (passed : first.sender.slowstartThreshold ≤ first.sender.congestionWindow) :
    last.sender.slowstartThreshold ≤ last.sender.congestionWindow ∧
      ∀ packetsRetransmitted,
        (last.sender.onRetransmissionTimeout packetsRetransmitted).slowstartThreshold ≤
          (last.sender.onRetransmissionTimeout packetsRetransmitted).congestionWindow := by
  have stays : last.sender.slowstartThreshold ≤ last.sender.congestionWindow :=
    run.invariant
      (fun state => state.sender.slowstartThreshold ≤ state.sender.congestionWindow)
      passed fun _ _ _ holds step => passed_step holds step
  exact ⟨stays, fun _ => stays⟩

/-- A sender that starts with the maximal window, through a reduction, the
recovery from it and a round. -/
theorem slow_start_not_reentered_recovery :
    ∃ last : VegasConnection,
      Run FittingStep (create 10 10)
        [.packetSent 1, .packetSent 2, .packetSent 3, .congestionEvent 100 1 [2] [1],
          .packetSent 4, .congestionEvent 100 2 [3, 4] []] last ∧
      last.sender.congestionWindow = 7300 ∧
      last.sender.slowstartThreshold ≤ last.sender.congestionWindow := by
  have run : Run FittingStep (create 10 10) _ _ := Run.of_execute
    [.packetSent 1, .packetSent 2, .packetSent 3, .congestionEvent 100 1 [2] [1],
      .packetSent 4, .congestionEvent 100 2 [3, 4] []] rfl
  exact ⟨_, run, rfl, (slow_start_not_reentered run (by decide)).1⟩

/-! ## The maximum -/

def AnyStep : VegasConnection → VegasAction → VegasConnection → Prop :=
  Guarded (fun _ _ => True) perform

def ackedPackets : List VegasAction → Nat
  | [] => 0
  | .congestionEvent _ _ acked _ :: rest => acked.length + ackedPackets rest
  | _ :: rest => ackedPackets rest

/-- The maximum leaves room for one segment per packet that the actions
acknowledge, above the window, the minimal window and the initial windows that
they set. -/
structure RoomFor (maxBytes : Nat) (connection : VegasConnection) (actions : List VegasAction)
    (largest : Nat) : Prop where
  window : connection.sender.congestionWindow ≤ largest
  least : kDefaultMinimumCongestionWindow ≤ largest
  initial : ∀ congestionWindow, .setInitialCongestionWindowInPackets congestionWindow ∈ actions →
    congestionWindow * kDefaultTCPMSS ≤ largest
  room : largest + kDefaultTCPMSS * ackedPackets actions ≤ maxBytes

/-- An event in Vegas mode and past slow start whose acknowledgements do not
reach the end of the round. -/
def Quiet (connection : VegasConnection) (actions : List VegasAction) : Prop :=
  ∃ latestRtt eventTime acked lost,
    actions = [.congestionEvent latestRtt eventTime acked lost] ∧
    connection.sender.vegasMode = true ∧ connection.sender.inSlowStart = false ∧
    ∀ packet ∈ acked, ∀ beg ∈ connection.sender.begSendNext, packet < beg

def HasRoom (maxBytes : Nat) (connection : VegasConnection) (actions : List VegasAction) : Prop :=
  (∃ largest, connection.RoomFor maxBytes actions largest) ∨ connection.Quiet actions

theorem ackedPackets_append (front back : List VegasAction) :
    ackedPackets (front ++ back) = ackedPackets front + ackedPackets back := by
  induction front with
  | nil => exact (Nat.zero_add _).symm
  | cons action rest inductionHypothesis =>
      cases action <;> simp only [List.cons_append, ackedPackets, inductionHypothesis,
        Nat.add_assoc]

theorem grown_step {maxBytes largest : Nat} {actions before : List VegasAction}
    {action : VegasAction} (room : first.RoomFor maxBytes actions largest)
    (begun : before ++ [action] <+: actions)
    (bound : connection.sender.congestionWindow ≤
      largest + kDefaultTCPMSS * ackedPackets before)
    (step : AnyStep connection action next) :
    next.sender.congestionWindow ≤
      largest + kDefaultTCPMSS * ackedPackets (before ++ [action]) := by
  have member : action ∈ actions := begun.subset (by simp)
  have result := step.2
  rw [ackedPackets_append, Nat.mul_add, ← Nat.add_assoc]
  cases action with
  | packetSent packetNumber =>
      rw [packetSent_eq_ok result]
      exact Nat.le_add_right_of_le bound
  | congestionEvent latestRtt eventTime acked lost =>
      exact onCongestionEvent_le (Nat.le_add_right_of_le room.least) bound
        (congestionEvent_eq_ok result).1
  | setInitialCongestionWindowInPackets congestionWindow =>
      rw [setInitialCongestionWindowInPackets_eq_ok result]
      apply Nat.le_add_right_of_le
      dsimp only
      split
      next =>
        exact Nat.le_add_right_of_le ((mulU64_le _ _).trans (room.initial _ member))
      next => exact bound

theorem within_stretch {maxBytes largest : Nat} {actions front : List VegasAction}
    (room : first.RoomFor maxBytes actions largest) (begun : front <+: actions)
    (run : Run AnyStep first front connection) :
    connection.sender.congestionWindow ≤ maxBytes := by
  have grown : connection.sender.congestionWindow ≤
      largest + kDefaultTCPMSS * ackedPackets front :=
    run.along (fun before state => state.sender.congestionWindow ≤
        largest + kDefaultTCPMSS * ackedPackets before) begun
      (Nat.le_add_right_of_le room.window)
      fun _ _ _ _ whole holds step => grown_step room whole holds step
  obtain ⟨rest, rfl⟩ := begun
  have fewer := room.room
  rw [ackedPackets_append, Nat.mul_add] at fewer
  omega

theorem within_begun {maxBytes : Nat} (enough : kDefaultMinimumCongestionWindow ≤ maxBytes)
    {actions front : List VegasAction} (within : first.sender.congestionWindow ≤ maxBytes)
    (room : first.HasRoom maxBytes actions) (begun : front <+: actions)
    (run : Run AnyStep first front connection) :
    connection.sender.congestionWindow ≤ maxBytes := by
  obtain ⟨largest, room⟩ | ⟨latestRtt, eventTime, acked, lost, rfl, mode, avoidance, ahead⟩ := room
  · exact within_stretch room begun run
  · rcases run.of_prefix_singleton begun with ⟨-, rfl⟩ | ⟨-, step⟩
    · exact within
    · exact onCongestionEvent_le_of_quiet enough mode avoidance ahead within
        (congestionEvent_eq_ok step.2).1

/-- In every run that consists of stretches with room below a maximum of at
least the minimal window, and in the stretch that follows, the window is within
the maximum. -/
theorem window_within_max_of_room {initialWindow maxWindow : Nat}
    {stretches : List (List VegasAction)} {actions front : List VegasAction}
    (ordered : mulU64 initialWindow kDefaultTCPMSS ≤ mulU64 maxWindow kDefaultTCPMSS)
    (enough : kDefaultMinimumCongestionWindow ≤ mulU64 maxWindow kDefaultTCPMSS)
    (earlier : Run (Stretch AnyStep (HasRoom (mulU64 maxWindow kDefaultTCPMSS)))
      (create initialWindow maxWindow) stretches first)
    (room : first.HasRoom (mulU64 maxWindow kDefaultTCPMSS) actions)
    (begun : front <+: actions) (run : Run AnyStep first front connection) :
    connection.sender.congestionWindow ≤ mulU64 maxWindow kDefaultTCPMSS := by
  have within : first.sender.congestionWindow ≤ mulU64 maxWindow kDefaultTCPMSS :=
    earlier.invariant
      (fun state => state.sender.congestionWindow ≤ mulU64 maxWindow kDefaultTCPMSS)
      ordered fun _ _ _ holds stretch =>
        within_begun enough holds stretch.1 (List.prefix_refl _) stretch.2
  exact within_begun enough within room begun run

/-- Four packets, of which the last ends a round with three samples. -/
def steadyRound : List VegasAction :=
  [.packetSent 1, .packetSent 2, .packetSent 3, .packetSent 4, .congestionEvent 100 1 [1] [],
    .congestionEvent 100 2 [2] [], .congestionEvent 100 3 [3] [], .congestionEvent 100 4 [4] []]

/-- With a maximum of four segments more than the initial window, the four
packets use it up: two in a first stretch, and two in another. -/
theorem window_within_max_of_room_round :
    ∃ first connection : VegasConnection,
      Run (Stretch AnyStep (HasRoom (mulU64 14 kDefaultTCPMSS))) (create 10 14)
        [steadyRound.take 6] first ∧
      Run AnyStep first (steadyRound.drop 6) connection ∧
      connection.sender.congestionWindow = 14 * kDefaultTCPMSS ∧
      connection.sender.congestionWindow ≤ mulU64 14 kDefaultTCPMSS := by
  have run : Run AnyStep (create 10 14) (steadyRound.take 6) _ := Run.of_execute _ rfl
  have roomAtFirst : (create 10 14).RoomFor (mulU64 14 kDefaultTCPMSS) (steadyRound.take 6)
      (10 * kDefaultTCPMSS) := ⟨by decide, by decide, by simp [steadyRound], by decide⟩
  have early : Run (Stretch AnyStep (HasRoom (mulU64 14 kDefaultTCPMSS))) (create 10 14)
      [steadyRound.take 6] _ := .snoc .start ⟨Or.inl ⟨_, roomAtFirst⟩, run⟩
  refine ⟨_, _, early, Run.of_execute _ rfl, rfl, ?_⟩
  refine window_within_max_of_room (by decide) (by decide) early
    (Or.inl ⟨12 * kDefaultTCPMSS, ?_⟩) (List.prefix_refl (steadyRound.drop 6))
    (Run.of_execute _ rfl)
  exact ⟨by decide, by decide, by simp [steadyRound], by decide⟩

/-- A sender that starts with the maximal window exceeds it after a round
without queueing delay. -/
theorem steady_round_exceeds_max :
    ∃ connection : VegasConnection,
      Run Step (create 10 10) steadyRound connection ∧
      connection.sender.congestionWindow = 11 * kDefaultTCPMSS ∧
      mulU64 10 kDefaultTCPMSS < connection.sender.congestionWindow := by
  have run : Run Step (create 10 10) _ _ := Run.of_execute steadyRound rfl
  exact ⟨_, run, rfl, by decide⟩

end VegasConnection

end Ns3Quic.CongestionControl
