import Ns3Quic.CongestionControl.CopaSender

/-!
# Slow start of the Copa sender

In slow start an increase decision doubles the window, at most once per
smoothed round-trip time.  The clock for this is `lastCwndDoubleTime_`, which
the first increase decision starts.  The time of that decision and the events
that doubled the window are recorded beside the sender.

Nothing in `OnPacketAcked` asks for an acknowledgement.  An event that reports
losses only runs the same clock and the same direction check, and may double
the window or end slow start.
-/

namespace Ns3Quic.CongestionControl

open TransitionSystem LoopRules

/-- The time of the first increase decision, and the events that doubled the
window, the latest first. -/
structure SlowStartHistory where
  firstIncrease : Option Nat
  doublings : List CopaEvent
  deriving DecidableEq

namespace SlowStartHistory

/-- The time of the last doubling, or else of the first increase decision. -/
def mark (firstIncrease : Option Nat) : List CopaEvent → Option Nat
  | [] => firstIncrease
  | event :: _ => some event.eventTime

/-- Every doubling comes more than its smoothed round-trip time after the
doubling before it, and the first one after the first increase decision. -/
def Spaced (firstIncrease : Option Nat) : List CopaEvent → Prop
  | [] => True
  | event :: earlier =>
      (∃ time, mark firstIncrease earlier = some time ∧
        time + event.smoothedRtt < event.eventTime) ∧
      Spaced firstIncrease earlier

theorem doublings_eq_nil {doublings : List CopaEvent} (spaced : Spaced none doublings) :
    doublings = [] := by
  induction doublings with
  | nil => rfl
  | cons event earlier inductionHypothesis =>
      obtain ⟨⟨time, known, _⟩, rest⟩ := spaced
      rw [inductionHypothesis rest] at known
      cases known

theorem Spaced.or {firstIncrease : Option Nat} {doublings : List CopaEvent}
    (spaced : Spaced firstIncrease doublings) (other : Option Nat) :
    Spaced (firstIncrease.or other) doublings := by
  cases firstIncrease with
  | some time => exact spaced
  | none =>
      rw [doublings_eq_nil spaced]
      trivial

theorem mark_or {firstIncrease : Option Nat} {doublings : List CopaEvent} {time : Nat}
    (known : mark firstIncrease doublings = some time) (other : Option Nat) :
    mark (firstIncrease.or other) doublings = some time := by
  cases doublings with
  | nil =>
      rw [mark] at known ⊢
      rw [known, Option.some_or]
  | cons event earlier => exact known

theorem mark_eq_none {firstIncrease : Option Nat} {doublings : List CopaEvent}
    (unknown : mark firstIncrease doublings = none) : firstIncrease = none ∧ doublings = [] := by
  cases doublings with
  | nil => exact ⟨unknown, rfl⟩
  | cons event earlier => cases unknown

end SlowStartHistory

namespace CopaSender

open SlowStartHistory

variable {sender next : CopaSender} {event : CopaEvent} {history : SlowStartHistory}

def Doubles (sender : CopaSender) (event : CopaEvent) : Prop :=
  sender.decision event = .ok true ∧ sender.isSlowStart = true ∧ sender.DoublingDue event

instance (sender : CopaSender) (event : CopaEvent) : Decidable (sender.Doubles event) :=
  inferInstanceAs (Decidable (_ = _ ∧ _ = _ ∧ _))

def recordEvent (sender : CopaSender) (event : CopaEvent) (history : SlowStartHistory) :
    SlowStartHistory where
  firstIncrease := history.firstIncrease.or
    (if sender.decision event = .ok true then some event.eventTime else none)
  doublings := if sender.Doubles event then event :: history.doublings else history.doublings

def recordSlowStart (sender : CopaSender) : CopaAction → SlowStartHistory → SlowStartHistory
  | .congestionEvent event, history => sender.recordEvent event history
  | .packetSent _, history | .setInitialCongestionWindowInPackets _, history => history

def Clocked : CopaAction → Prop
  | .congestionEvent event => event.eventTime ≠ 0
  | .packetSent _ => True
  | .setInitialCongestionWindowInPackets _ => False

instance (action : CopaAction) : Decidable (Clocked action) :=
  match action with
  | .congestionEvent event => inferInstanceAs (Decidable (event.eventTime ≠ 0))
  | .packetSent _ => inferInstanceAs (Decidable True)
  | .setInitialCongestionWindowInPackets _ => inferInstanceAs (Decidable False)

def ClockedStep : CopaSender → CopaAction → CopaSender → Prop :=
  Guarded (fun _ => Clocked) perform

def DoublingStep : CopaSender × SlowStartHistory → CopaAction →
    CopaSender × SlowStartHistory → Prop :=
  Guarded (fun _ => Clocked) (recording perform recordSlowStart)

/-- In slow start the window has been doubled as often as recorded, and the
clock shows the last mark. -/
structure Doubled (sender : CopaSender) (initialBytes : Nat) (history : SlowStartHistory) :
    Prop where
  window : sender.isSlowStart = true →
    sender.congestionWindow = initialBytes * 2 ^ history.doublings.length
  clock : sender.isSlowStart = true →
    mark history.firstIncrease history.doublings =
      if sender.lastCwndDoubleTime = 0 then none else some sender.lastCwndDoubleTime
  spaced : Spaced history.firstIncrease history.doublings

theorem doubled_create (initialWindow maxWindow : Nat) :
    (create initialWindow maxWindow).Doubled (mulU64 initialWindow kDefaultTCPMSS)
      ⟨none, []⟩ where
  window := fun _ => (Nat.mul_one _).symm
  clock := fun _ => rfl
  spaced := trivial

theorem onCongestionEvent_arms (decided : sender.decision event = .ok true)
    (slow : sender.isSlowStart = true) (unset : sender.lastCwndDoubleTime = 0) :
    sender.onCongestionEvent event =
      .ok { sender.observed event with lastCwndDoubleTime := event.eventTime } := by
  rw [onCongestionEvent_eq, decided, bind_ok, if_pos rfl, if_pos slow, slowStart,
    lastCwndDoubleTime_observed, if_pos unset]

theorem Doubled.arms {initialBytes : Nat} (doubled : sender.Doubled initialBytes history)
    (timed : event.eventTime ≠ 0) (decided : sender.decision event = .ok true)
    (slow : sender.isSlowStart = true) (unset : sender.lastCwndDoubleTime = 0) :
    Doubled { sender.observed event with lastCwndDoubleTime := event.eventTime } initialBytes
      (sender.recordEvent event history) := by
  have window := doubled.window slow
  have nothing := doubled.clock slow
  rw [if_pos unset] at nothing
  obtain ⟨first, doublings⟩ := mark_eq_none nothing
  have notDue : ¬ sender.Doubles event := fun doubles => doubles.2.2.1 unset
  rw [doublings] at window
  unfold recordEvent
  rw [first, doublings, if_neg notDue, Option.none_or, if_pos decided]
  constructor
  case window =>
    intro _
    exact (sender.congestionWindow_observed event).trans window
  case clock =>
    intro _
    exact (if_neg timed).symm
  case spaced => trivial

theorem Doubled.doubles {initialBytes : Nat} (doubled : sender.Doubled initialBytes history)
    (doubles : sender.Doubles event) :
    Doubled { sender.observed event with
      congestionWindow := sender.congestionWindow + sender.congestionWindow
      lastCwndDoubleTime := event.eventTime } initialBytes
      (sender.recordEvent event history) := by
  have ⟨decided, slow, set, due⟩ := doubles
  have clock := doubled.clock slow
  rw [if_neg set] at clock
  unfold recordEvent
  rw [if_pos decided, if_pos doubles]
  constructor
  case window =>
    intro _
    change sender.congestionWindow + sender.congestionWindow =
      initialBytes * 2 ^ (history.doublings.length + 1)
    rw [doubled.window slow, Nat.pow_succ, ← Nat.mul_assoc, Nat.mul_two]
  case clock =>
    intro _
    have later : event.eventTime ≠ 0 := by omega
    exact (if_neg later).symm
  case spaced => exact ⟨⟨_, mark_or clock _, due⟩, doubled.spaced.or _⟩

/-- An event that does not double the window keeps the clock, or ends slow
start. -/
theorem Doubled.keeps {initialBytes : Nat} (doubled : sender.Doubled initialBytes history)
    (notDoubles : ¬ sender.Doubles event)
    (stays : next.isSlowStart = true →
      sender.isSlowStart = true ∧ sender.lastCwndDoubleTime ≠ 0 ∧
        next.congestionWindow = sender.congestionWindow ∧
        next.lastCwndDoubleTime = sender.lastCwndDoubleTime) :
    next.Doubled initialBytes (sender.recordEvent event history) := by
  unfold recordEvent
  rw [if_neg notDoubles]
  constructor
  case window =>
    intro slow
    obtain ⟨before, _, sameWindow, _⟩ := stays slow
    rw [sameWindow]
    exact doubled.window before
  case clock =>
    intro slow
    obtain ⟨before, set, _, sameClock⟩ := stays slow
    have clock := doubled.clock before
    rw [if_neg set] at clock
    rw [sameClock, if_neg set]
    exact mark_or clock _
  case spaced => exact doubled.spaced.or _

theorem Doubled.onCongestionEvent {initialBytes : Nat}
    (doubled : sender.Doubled initialBytes history) (timed : event.eventTime ≠ 0)
    (result : sender.onCongestionEvent event = .ok next) :
    next.Doubled initialBytes (sender.recordEvent event history) := by
  by_cases arms : sender.decision event = .ok true ∧ sender.isSlowStart = true ∧
      sender.lastCwndDoubleTime = 0
  · obtain ⟨decided, slow, unset⟩ := arms
    rw [onCongestionEvent_arms decided slow unset, Except.ok.injEq] at result
    rw [← result]
    exact doubled.arms timed decided slow unset
  · cases EventStep.of_onCongestionEvent result with
    | armed decided slow unset => exact absurd ⟨decided, slow, unset⟩ arms
    | doubled decided slow due fits => exact doubled.doubles ⟨decided, slow, due⟩
    | waiting decided slow early =>
        refine doubled.keeps (fun doubles => early doubles.2.2) fun _ =>
          ⟨slow, fun unset => arms ⟨decided, slow, unset⟩,
            sender.congestionWindow_observed event, sender.lastCwndDoubleTime_observed event⟩
    | increased change decided avoidance computed fits =>
        have fast : (sender.observed event).isSlowStart = false :=
          (sender.isSlowStart_observed event).trans avoidance
        refine doubled.keeps ?_ ?_
        · intro doubles
          exact Bool.false_ne_true (avoidance.symm.trans doubles.2.1)
        · intro slow
          exact absurd (fast.symm.trans slow) Bool.false_ne_true
    | decreased change decided computed fits =>
        refine doubled.keeps ?_ ?_
        · intro doubles
          exact absurd (decided.symm.trans doubles.1) (by simp)
        · intro slow
          cases slow

theorem Doubled.step {initialBytes : Nat} (doubled : sender.Doubled initialBytes history)
    {action : CopaAction} (clocked : Clocked action)
    (result : sender.perform action = .ok next) :
    next.Doubled initialBytes (sender.recordSlowStart action history) := by
  cases action with
  | packetSent packetNumber =>
      rw [onPacketSent_eq_ok result]
      exact { doubled with }
  | congestionEvent event => exact doubled.onCongestionEvent clocked result
  | setInitialCongestionWindowInPackets congestionWindow => exact clocked.elim

theorem slowStart_left {action : CopaAction} (left : sender.isSlowStart = false)
    (result : sender.perform action = .ok next) : next.isSlowStart = false := by
  cases action with
  | packetSent packetNumber =>
      rw [onPacketSent_eq_ok result]
      exact left
  | congestionEvent event =>
      have same := (sender.isSlowStart_observed event).trans left
      cases EventStep.of_onCongestionEvent result with
      | armed => exact same
      | doubled => exact same
      | waiting => exact same
      | increased => exact same
      | decreased => rfl
  | setInitialCongestionWindowInPackets congestionWindow =>
      rw [setInitialCongestionWindowInPackets_eq_ok result]
      exact left

/-- In every run with set event times and without a change of the initial
window, the window in slow start is the initial one doubled as often as
recorded.  The doublings are spaced by smoothed round-trip times, and slow start
is never entered again. -/
theorem slow_start_doubles {initialWindow maxWindow : Nat} {actions : List CopaAction}
    (run : Run ClockedStep (create initialWindow maxWindow) actions sender) :
    (∃ history,
      Run DoublingStep (create initialWindow maxWindow, ⟨none, []⟩) actions
        (sender, history) ∧
      (sender.isSlowStart = true →
        sender.congestionWindow =
          mulU64 initialWindow kDefaultTCPMSS * 2 ^ history.doublings.length) ∧
      Spaced history.firstIncrease history.doublings) ∧
    (sender.isSlowStart = false →
      ∀ further later, Run Step sender further later → later.isSlowStart = false) := by
  constructor
  · obtain ⟨history, recorded, doubled⟩ := run.recording_invariant
      (fun state => state.Doubled (mulU64 initialWindow kDefaultTCPMSS))
      (doubled_create initialWindow maxWindow)
      fun _ _ _ _ holds step => holds.step step.1 step.2
    exact ⟨history, recorded, doubled.window, doubled.spaced⟩
  · intro left further later continuation
    exact continuation.invariant (fun state => state.isSlowStart = false) left
      fun _ _ _ holds step => slowStart_left holds step.2

/-- Undelayed acknowledgements with a smoothed round-trip time that grows: the
second and the fourth double the window. -/
def growingRtt : List CopaAction :=
  [.congestionEvent ⟨1, 100, 1000, [1], []⟩, .congestionEvent ⟨1002, 100, 1000, [2], []⟩,
    .congestionEvent ⟨2003, 100, 2000, [3], []⟩, .congestionEvent ⟨3003, 100, 2000, [4], []⟩]

theorem slow_start_doubles_twice :
    (∃ sender : CopaSender,
      Run DoublingStep (create 10 100, ⟨none, []⟩) growingRtt
        (sender, ⟨some 1, [⟨3003, 100, 2000, [4], []⟩, ⟨1002, 100, 1000, [2], []⟩]⟩)) ∧
    ∃ (sender : CopaSender) (history : SlowStartHistory),
      Run ClockedStep (create 10 100) growingRtt sender ∧
      Run DoublingStep (create 10 100, ⟨none, []⟩) growingRtt (sender, history) ∧
      sender.congestionWindow = 14600 * 2 ^ history.doublings.length := by
  refine ⟨⟨_, Run.of_execute _ rfl⟩, ?_⟩
  have run : Run ClockedStep (create 10 100) _ _ := Run.of_execute growingRtt rfl
  obtain ⟨history, recorded, window, _⟩ := (slow_start_doubles run).1
  exact ⟨_, history, run, recorded, window rfl⟩

/-! ## Events without acknowledgements -/

def ClockRests (sender : CopaSender) (event : CopaEvent) : Prop :=
  ¬ sender.DoublingDue event ∧ (sender.lastCwndDoubleTime = 0 → event.eventTime = 0)

/-- Less than a smoothed round-trip time has passed since the window was
recorded, and the direction is the given one or the velocity not above one.  An
event without a time finds nothing to record. -/
def VelocityRests (sender : CopaSender) (event : CopaEvent) (direction : Direction) : Prop :=
  (if sender.velocityState.lastCwndRecordTime = 0 then
    event.eventTime = 0 ∧ sender.velocityState.lastRecordedCwndBytes = sender.congestionWindow
  else
    event.eventTime < sender.velocityState.lastCwndRecordTime + event.smoothedRtt) ∧
  (sender.velocityState.direction = direction ∨ sender.velocityState.velocity ≤ 1)

/-- Nothing is due at the event.  A decision against an increase must not find
the sender in slow start. -/
def Rests (sender : CopaSender) (event : CopaEvent) : Prop :=
  match sender.decision event with
  | .ok true =>
      if sender.isSlowStart then sender.ClockRests event else sender.VelocityRests event .up
  | .ok false => sender.isSlowStart = false ∧ sender.VelocityRests event .down
  | .error _ => True

instance (sender : CopaSender) (event : CopaEvent) : Decidable (sender.ClockRests event) :=
  inferInstanceAs (Decidable (¬ _ ∧ (_ = _ → _ = _)))

instance (sender : CopaSender) (event : CopaEvent) (direction : Direction) :
    Decidable (sender.VelocityRests event direction) := by
  unfold VelocityRests
  infer_instance

instance (sender : CopaSender) (event : CopaEvent) : Decidable (sender.Rests event) := by
  unfold Rests
  split <;> infer_instance

end CopaSender

namespace VelocityState

variable {state : VelocityState} {congestionWindow smoothedRtt ackTime : Nat}

theorem turn_cases (state : VelocityState) (direction : Direction)
    (congestionWindow ackTime : Nat) :
    (state.turn direction congestionWindow ackTime = state ∧
      (state.direction = direction ∨ state.velocity ≤ 1)) ∨
    ((state.turn direction congestionWindow ackTime).direction = direction ∧
      state.direction ≠ direction ∧ 1 < state.velocity) := by
  unfold turn changeDirection
  split
  next turns =>
    rw [if_neg turns.1]
    exact Or.inr ⟨rfl, turns⟩
  next stays =>
    refine Or.inl ⟨rfl, ?_⟩
    by_cases agrees : state.direction = direction
    · exact Or.inl agrees
    · exact Or.inr (not_lt.mp fun fast => stays ⟨agrees, fast⟩)

theorem turn_eq_self {direction : Direction}
    (agrees : state.direction = direction ∨ state.velocity ≤ 1) :
    state.turn direction congestionWindow ackTime = state := by
  rcases state.turn_cases direction congestionWindow ackTime with
    ⟨same, _⟩ | ⟨_, differs, fast⟩
  · exact same
  · rcases agrees with agrees | slow
    · exact absurd agrees differs
    · exact absurd fast (not_lt.mpr slow)

theorem addU64_one_ne (value : Nat) : addU64 value 1 ≠ value := by
  unfold addU64
  omega

/-- What the direction check does when it is due: it turns with velocity one, or
counts one more confirmation. -/
theorem checkAndUpdateDirection_due (set : state.lastCwndRecordTime ≠ 0)
    (due : state.lastCwndRecordTime + smoothedRtt ≤ ackTime) :
    ((state.checkAndUpdateDirection congestionWindow smoothedRtt ackTime).direction ≠
        state.direction ∧
      (state.checkAndUpdateDirection congestionWindow smoothedRtt ackTime).velocity = 1) ∨
    ((state.checkAndUpdateDirection congestionWindow smoothedRtt ackTime).direction =
        state.direction ∧
      state.checkAndUpdateDirection congestionWindow smoothedRtt ackTime ≠ state) := by
  unfold checkAndUpdateDirection
  rw [if_neg set, if_pos due]
  dsimp only
  split
  next turned => exact Or.inl ⟨turned, rfl⟩
  next same =>
    refine Or.inr ⟨not_not.mp same, ?_⟩
    intro unchanged
    exact addU64_one_ne _ (congrArg VelocityState.numTimesDirectionSame unchanged)

theorem checkAndUpdateDirection_eq_self_iff :
    state.checkAndUpdateDirection congestionWindow smoothedRtt ackTime = state ↔
      if state.lastCwndRecordTime = 0 then
        ackTime = 0 ∧ state.lastRecordedCwndBytes = congestionWindow
      else
        ackTime < state.lastCwndRecordTime + smoothedRtt := by
  split
  next unset =>
    unfold checkAndUpdateDirection
    rw [if_pos unset]
    constructor
    · intro unchanged
      have time := congrArg lastCwndRecordTime unchanged
      exact ⟨time.trans unset, (congrArg lastRecordedCwndBytes unchanged).symm⟩
    · rintro ⟨rfl, rfl⟩
      rw [← unset]
  next set =>
    constructor
    · intro unchanged
      by_contra due
      rcases checkAndUpdateDirection_due set (not_lt.mp due) with ⟨other, _⟩ | ⟨_, changed⟩
      · exact other (congrArg VelocityState.direction unchanged)
      · exact changed unchanged
    · intro early
      rw [checkAndUpdateDirection, if_neg set, if_neg (not_le.mpr early)]

theorem checkAndUpdateDirection_velocity
    (turned : (state.checkAndUpdateDirection congestionWindow smoothedRtt ackTime).direction ≠
      state.direction) :
    (state.checkAndUpdateDirection congestionWindow smoothedRtt ackTime).velocity = 1 := by
  by_cases unset : state.lastCwndRecordTime = 0
  · rw [checkAndUpdateDirection, if_pos unset] at turned
    exact absurd rfl turned
  · by_cases due : state.lastCwndRecordTime + smoothedRtt ≤ ackTime
    · rcases checkAndUpdateDirection_due unset due with ⟨_, one⟩ | ⟨same, _⟩
      · exact one
      · exact absurd same turned
    · rw [checkAndUpdateDirection_eq_self_iff.mpr (by rw [if_neg unset]; omega)] at turned
      exact absurd rfl turned

theorem checkAndTurn_eq_self_iff {direction : Direction} :
    (state.checkAndUpdateDirection congestionWindow smoothedRtt ackTime).turn direction
        congestionWindow ackTime = state ↔
      (if state.lastCwndRecordTime = 0 then
        ackTime = 0 ∧ state.lastRecordedCwndBytes = congestionWindow
      else
        ackTime < state.lastCwndRecordTime + smoothedRtt) ∧
      (state.direction = direction ∨ state.velocity ≤ 1) := by
  rw [← checkAndUpdateDirection_eq_self_iff]
  constructor
  · intro unchanged
    rcases turn_cases (state.checkAndUpdateDirection congestionWindow smoothedRtt ackTime)
        direction congestionWindow ackTime with ⟨same, agrees⟩ | ⟨turned, differs, fast⟩
    · rw [same] at unchanged
      rw [unchanged] at agrees
      exact ⟨unchanged, agrees⟩
    · -- a turn would have to take back a turn of the check
      rw [unchanged] at turned
      have one := checkAndUpdateDirection_velocity (turned ▸ differs)
      exact absurd fast (by rw [one]; exact lt_irrefl 1)
  · rintro ⟨checked, agrees⟩
    rw [checked]
    exact turn_eq_self agrees

end VelocityState

namespace CopaSender

variable {sender next : CopaSender} {event : CopaEvent}

theorem steer_eq_self_iff {direction : Direction} :
    sender.steer event direction = sender.velocityState ↔
      sender.VelocityRests event direction :=
  VelocityState.checkAndTurn_eq_self_iff

theorem windowChange_nil {congestionWindow velocity change : Nat}
    (noAcks : event.ackedPackets = [])
    (computed : windowChange congestionWindow event.ackedPackets.length velocity = .ok change) :
    change = 0 := by
  rw [(windowChange_eq_ok.mp computed).2.2, noAcks, ackedProduct_eq_mod]
  simp

theorem rests_of_slowStart (decided : sender.decision event = .ok true)
    (slow : sender.isSlowStart = true) : sender.Rests event ↔ sender.ClockRests event := by
  simp [Rests, decided, slow]

theorem rests_of_increase (decided : sender.decision event = .ok true)
    (avoidance : sender.isSlowStart = false) :
    sender.Rests event ↔ sender.steer event .up = sender.velocityState := by
  simp [Rests, decided, avoidance, steer_eq_self_iff]

theorem rests_of_decrease (decided : sender.decision event = .ok false) :
    sender.Rests event ↔
      sender.isSlowStart = false ∧ sender.steer event .down = sender.velocityState := by
  simp [Rests, decided, steer_eq_self_iff]

/-- Whatever the state, an event without acknowledgements that succeeds leaves
the window and what moves it alone if and only if nothing was due. -/
theorem loss_event_keeps_window_iff (noAcks : event.ackedPackets = [])
    (result : sender.onCongestionEvent event = .ok next) :
    (next.congestionWindow = sender.congestionWindow ∧
      next.isSlowStart = sender.isSlowStart ∧
      next.lastCwndDoubleTime = sender.lastCwndDoubleTime ∧
      next.velocityState = sender.velocityState) ↔ sender.Rests event := by
  obtain ⟨window, _, slowStart, clock, velocity⟩ := sender.observed_frame event
  by_cases arms : sender.decision event = .ok true ∧ sender.isSlowStart = true ∧
      sender.lastCwndDoubleTime = 0
  · obtain ⟨decided, slow, unset⟩ := arms
    rw [onCongestionEvent_arms decided slow unset, Except.ok.injEq] at result
    rw [← result, rests_of_slowStart decided slow]
    constructor
    · rintro ⟨_, _, sameClock, _⟩
      exact ⟨fun due => due.1 unset, fun _ => sameClock.trans unset⟩
    · rintro ⟨_, untimed⟩
      exact ⟨window, slowStart, (untimed unset).trans unset.symm, velocity⟩
  · cases EventStep.of_onCongestionEvent result with
    | armed decided slow unset => exact absurd ⟨decided, slow, unset⟩ arms
    | doubled decided slow due fits =>
        rw [rests_of_slowStart decided slow]
        constructor
        · rintro ⟨_, _, (sameClock : event.eventTime = sender.lastCwndDoubleTime), _⟩
          have later := due.2
          omega
        · rintro ⟨early, _⟩
          exact absurd due early
    | waiting decided slow early =>
        rw [rests_of_slowStart decided slow]
        constructor
        · intro _
          exact ⟨early, fun unset => absurd ⟨decided, slow, unset⟩ arms⟩
        · intro _
          exact ⟨window, slowStart, clock, velocity⟩
    | increased change decided avoidance computed fits =>
        rw [rests_of_increase decided avoidance]
        constructor
        · rintro ⟨_, _, _, sameVelocity⟩
          exact sameVelocity
        · intro rests
          rw [windowChange_nil noAcks computed]
          exact ⟨rfl, slowStart, clock, rests⟩
    | decreased change decided computed fits =>
        rw [rests_of_decrease decided]
        constructor
        · rintro ⟨_, sameSlowStart, _, sameVelocity⟩
          exact ⟨sameSlowStart.symm, sameVelocity⟩
        · rintro ⟨avoidance, rests⟩
          rw [windowChange_nil noAcks computed, Nat.zero_min]
          exact ⟨rfl, avoidance.symm, clock, rests⟩

def oneOutstanding : List CopaAction :=
  [.packetSent 1, .packetSent 2, .congestionEvent ⟨1, 100, 1000, [1], []⟩]

/-- A loss within a smoothed round-trip time of the acknowledgement. -/
theorem loss_event_keeps_window_iff_early :
    ∃ sender next : CopaSender,
      Run Step (create 10 100) oneOutstanding sender ∧
      sender.onCongestionEvent ⟨501, 100, 1000, [], [2]⟩ = .ok next ∧
      next.congestionWindow = sender.congestionWindow := by
  have executed : (execute (fun _ _ => True) perform oneOutstanding (create 10 100)).map
      (fun sender =>
        (decide (sender.Rests ⟨501, 100, 1000, [], [2]⟩),
          (sender.onCongestionEvent ⟨501, 100, 1000, [], [2]⟩).isOk)) = some (true, true) := by
    decide +kernel
  obtain ⟨sender, result, values⟩ := Option.map_eq_some_iff.mp executed
  obtain ⟨rests, succeeds⟩ := Prod.mk.inj values
  cases performed : sender.onCongestionEvent ⟨501, 100, 1000, [], [2]⟩ with
  | error fault =>
      rw [performed] at succeeds
      cases succeeds
  | ok next =>
      have kept := (loss_event_keeps_window_iff rfl performed).mpr (of_decide_eq_true rests)
      exact ⟨sender, next, Run.of_execute _ result, performed, kept.1⟩

/-- Later than that the loss doubles the window. -/
theorem loss_event_doubles_window :
    ∃ sender next : CopaSender,
      Run Step (create 10 100) oneOutstanding sender ∧
      sender.onCongestionEvent ⟨1002, 100, 1000, [], [2]⟩ = .ok next ∧
      sender.congestionWindow = 14600 ∧ next.congestionWindow = 29200 ∧
      sender.lastCwndDoubleTime = 1 ∧ next.lastCwndDoubleTime = 1002 := by
  have executed : (execute (fun _ _ => True) perform oneOutstanding (create 10 100)).map
      (fun sender =>
        (sender.congestionWindow, sender.lastCwndDoubleTime,
          (sender.onCongestionEvent ⟨1002, 100, 1000, [], [2]⟩).map fun next =>
            (next.congestionWindow, next.lastCwndDoubleTime))) =
      some (14600, 1, .ok (29200, 1002)) := by
    decide +kernel
  obtain ⟨sender, result, values⟩ := Option.map_eq_some_iff.mp executed
  simp only [Prod.mk.injEq] at values
  obtain ⟨window, clock, after⟩ := values
  cases performed : sender.onCongestionEvent ⟨1002, 100, 1000, [], [2]⟩ with
  | error fault =>
      rw [performed] at after
      cases after
  | ok next =>
      rw [performed] at after
      obtain ⟨windowAfter, clockAfter⟩ := Prod.mk.inj (Except.ok.inj after)
      exact ⟨sender, next, Run.of_execute _ result, performed, window, windowAfter, clock,
        clockAfter⟩

end CopaSender

end Ns3Quic.CongestionControl
