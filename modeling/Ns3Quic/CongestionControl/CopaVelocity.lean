import Ns3Quic.CongestionControl.CopaSender
import Mathlib.Algebra.Order.Ring.Nat

/-!
# The velocity of the Copa sender

The velocity is meant to be one for the first two confirmations of a direction
and to double with every further one.  Nothing bounds the number of
confirmations: a window that rests at its minimum counts as moving down.  The
velocity is the intended power of two as long as the confirmations that an event
finds, together with the packets it acknowledges, leave room for one more
doubling.
-/

namespace Ns3Quic.CongestionControl

open TransitionSystem LoopRules

namespace VelocityState

variable {state : VelocityState}

def intended (state : VelocityState) : Nat := 2 ^ (state.numTimesDirectionSame - 2)

structure Exact (state : VelocityState) : Prop where
  velocity_eq : state.velocity = state.intended
  fits : state.intended < 2 ^ 64

theorem exact_of_reset (direction : Direction) (recordedCwndBytes recordTime : Nat) :
    Exact ⟨1, direction, 0, recordedCwndBytes, recordTime⟩ :=
  ⟨rfl, (by decide : 2 ^ (0 - 2) < 2 ^ 64)⟩

theorem Exact.numTimesDirectionSame_lt (exact : state.Exact) :
    state.numTimesDirectionSame < 66 := by
  have exponent : state.numTimesDirectionSame - 2 < 64 :=
    (Nat.pow_lt_pow_iff_right (by decide)).mp exact.fits
  omega

theorem Exact.confirmed (exact : state.Exact)
    (fits : 2 ^ (addU64 state.numTimesDirectionSame 1 - 2) < 2 ^ 64) :
    (if 3 ≤ addU64 state.numTimesDirectionSame 1 then mulU64 2 state.velocity
      else state.velocity) = 2 ^ (addU64 state.numTimesDirectionSame 1 - 2) := by
  have small := exact.numTimesDirectionSame_lt
  have counted : addU64 state.numTimesDirectionSame 1 = state.numTimesDirectionSame + 1 := by
    apply addU64_of_lt
    omega
  rw [counted] at fits ⊢
  rw [exact.velocity_eq]
  unfold intended
  split
  next many =>
    have doubled : 2 ^ (state.numTimesDirectionSame + 1 - 2) =
        2 * 2 ^ (state.numTimesDirectionSame - 2) := by
      rw [← pow_succ']
      congr 1
      omega
    rw [doubled] at fits ⊢
    exact mulU64_of_lt fits
  next few =>
    congr 1
    omega

theorem numTimesDirectionSame_checkAndUpdateDirection_le (state : VelocityState)
    (congestionWindow smoothedRtt ackTime : Nat) :
    (state.checkAndUpdateDirection congestionWindow smoothedRtt ackTime).numTimesDirectionSame ≤
      state.numTimesDirectionSame + 1 := by
  unfold VelocityState.checkAndUpdateDirection
  split
  next => exact Nat.le_succ _
  next =>
    split
    next =>
      dsimp only
      split
      next => exact Nat.zero_le _
      next => exact Nat.mod_le _ _
    next => exact Nat.le_succ _

theorem numTimesDirectionSame_turn_le (state : VelocityState) (direction : Direction)
    (congestionWindow ackTime : Nat) :
    (state.turn direction congestionWindow ackTime).numTimesDirectionSame ≤
      state.numTimesDirectionSame := by
  unfold VelocityState.turn changeDirection
  split
  next =>
    split
    next => exact le_rfl
    next => exact Nat.zero_le _
  next => exact le_rfl

theorem Exact.checkAndUpdateDirection (exact : state.Exact)
    (room : state.numTimesDirectionSame ≤ 64) (congestionWindow smoothedRtt ackTime : Nat) :
    (state.checkAndUpdateDirection congestionWindow smoothedRtt ackTime).Exact := by
  have fits :
      (state.checkAndUpdateDirection congestionWindow smoothedRtt ackTime).intended < 2 ^ 64 := by
    have counted := state.numTimesDirectionSame_checkAndUpdateDirection_le congestionWindow
      smoothedRtt ackTime
    apply Nat.pow_lt_pow_right (by decide)
    omega
  refine ⟨?_, fits⟩
  unfold VelocityState.checkAndUpdateDirection at fits ⊢
  split at fits
  next unset =>
    rw [if_pos unset]
    exact exact.velocity_eq
  next set =>
    rw [if_neg set]
    split at fits
    next due =>
      rw [if_pos due]
      dsimp only at fits ⊢
      split at fits
      next turned =>
        rw [if_pos turned]
        rfl
      next same =>
        rw [if_neg same]
        exact exact.confirmed fits
    next early =>
      rw [if_neg early]
      exact exact.velocity_eq

theorem Exact.turn (exact : state.Exact) (direction : Direction)
    (congestionWindow ackTime : Nat) :
    (state.turn direction congestionWindow ackTime).Exact := by
  unfold VelocityState.turn changeDirection
  split
  next =>
    split
    next => exact exact
    next => exact exact_of_reset _ _ _
  next => exact exact

end VelocityState

namespace CopaSender

variable {sender next : CopaSender} {event : CopaEvent}

def directionOf (increaseCwnd : Bool) : Direction := if increaseCwnd then .up else .down

/-- The window is moved with a velocity, not by slow start. -/
def MovesWithVelocity (sender : CopaSender) (increaseCwnd : Bool) : Prop :=
  ¬ (increaseCwnd = true ∧ sender.isSlowStart = true)

/-- The largest number of units of `kDefaultTCPMSS * kDefaultTCPMSS` that is a
64-bit number. -/
def representableUnits : Nat := (2 ^ 64 - 1) / (kDefaultTCPMSS * kDefaultTCPMSS)

/-- The direction has been confirmed at most 64 times before the event, and the
acknowledged packets leave room for the velocity after one more confirmation. -/
def Representable (sender : CopaSender) : CopaAction → Prop
  | .congestionEvent event =>
      sender.velocityState.numTimesDirectionSame ≤ 64 ∧
        event.ackedPackets.length * 2 ^ (sender.velocityState.numTimesDirectionSame - 1) ≤
          representableUnits
  | .packetSent _ | .setInitialCongestionWindowInPackets _ => True

def RepresentableStep : CopaSender → CopaAction → CopaSender → Prop :=
  Guarded Representable perform

instance (sender : CopaSender) (increaseCwnd : Bool) :
    Decidable (sender.MovesWithVelocity increaseCwnd) :=
  inferInstanceAs (Decidable (¬ (_ ∧ _)))

instance (sender : CopaSender) (action : CopaAction) :
    Decidable (sender.Representable action) :=
  match action with
  | .congestionEvent _ => inferInstanceAs (Decidable (_ ∧ _))
  | .packetSent _ | .setInitialCongestionWindowInPackets _ =>
      inferInstanceAs (Decidable True)

theorem exact_steer (exact : sender.velocityState.Exact)
    (representable : sender.Representable (.congestionEvent event)) (direction : Direction) :
    (sender.steer event direction).Exact :=
  (exact.checkAndUpdateDirection representable.1 _ _ _).turn _ _ _

/-- The velocity with which the window is moved is at most one doubling above
the one that the event finds. -/
theorem velocity_steer_le (exact : sender.velocityState.Exact)
    (representable : sender.Representable (.congestionEvent event)) (direction : Direction) :
    (sender.steer event direction).velocity ≤
      2 ^ (sender.velocityState.numTimesDirectionSame - 1) := by
  have counted : (sender.steer event direction).numTimesDirectionSame ≤
      sender.velocityState.numTimesDirectionSame + 1 :=
    (VelocityState.numTimesDirectionSame_turn_le _ _ _ _).trans
      (VelocityState.numTimesDirectionSame_checkAndUpdateDirection_le _ _ _ _)
  rw [(exact_steer exact representable direction).velocity_eq]
  apply Nat.pow_le_pow_right (by decide)
  omega

theorem ackedProduct_of_representable (exact : sender.velocityState.Exact)
    (representable : sender.Representable (.congestionEvent event)) (direction : Direction) :
    event.ackedPackets.length * kDefaultTCPMSS * kDefaultTCPMSS *
        (sender.steer event direction).velocity < 2 ^ 64 ∧
      ackedProduct event.ackedPackets.length (sender.steer event direction).velocity =
        event.ackedPackets.length * kDefaultTCPMSS * kDefaultTCPMSS *
          (sender.steer event direction).velocity := by
  have bound : event.ackedPackets.length * kDefaultTCPMSS * kDefaultTCPMSS *
      (sender.steer event direction).velocity < 2 ^ 64 := by
    calc event.ackedPackets.length * kDefaultTCPMSS * kDefaultTCPMSS *
          (sender.steer event direction).velocity
        ≤ event.ackedPackets.length * kDefaultTCPMSS * kDefaultTCPMSS *
            2 ^ (sender.velocityState.numTimesDirectionSame - 1) :=
          Nat.mul_le_mul_left _ (velocity_steer_le exact representable direction)
      _ = kDefaultTCPMSS * kDefaultTCPMSS * (event.ackedPackets.length *
            2 ^ (sender.velocityState.numTimesDirectionSame - 1)) := by ac_rfl
      _ ≤ kDefaultTCPMSS * kDefaultTCPMSS * representableUnits :=
          Nat.mul_le_mul_left _ representable.2
      _ < 2 ^ 64 := by decide
  exact ⟨bound, (ackedProduct_eq_mod _ _).trans (Nat.mod_eq_of_lt bound)⟩

structure Confirms (sender : CopaSender) (event : CopaEvent) (direction : Direction) : Prop where
  recorded : sender.velocityState.lastCwndRecordTime ≠ 0
  due : sender.velocityState.lastCwndRecordTime + event.smoothedRtt ≤ event.eventTime
  same : sender.velocityState.newDirection sender.congestionWindow =
    sender.velocityState.direction
  agrees : sender.velocityState.direction = direction

theorem velocity_steer_of_confirms {direction : Direction}
    (confirms : sender.Confirms event direction) :
    (sender.steer event direction).velocity =
      if 3 ≤ addU64 sender.velocityState.numTimesDirectionSame 1 then
        mulU64 2 sender.velocityState.velocity
      else
        sender.velocityState.velocity := by
  have keeps : ¬ sender.velocityState.newDirection sender.congestionWindow ≠
      sender.velocityState.direction := not_not_intro confirms.same
  unfold steer VelocityState.checkAndUpdateDirection
  rw [if_neg confirms.recorded, if_pos confirms.due]
  dsimp only
  rw [if_neg keeps]
  unfold VelocityState.turn
  rw [if_neg fun turns => turns.1 (confirms.same.trans confirms.agrees)]

/-- Where the event confirms the direction the room is also needed. -/
theorem inexact_of_not_representable (exact : sender.velocityState.Exact) {direction : Direction}
    (confirms : sender.Confirms event direction)
    (excess : ¬ sender.Representable (.congestionEvent event)) :
    (sender.steer event direction).velocity ≠
        2 ^ (sender.velocityState.numTimesDirectionSame - 1) ∨
      2 ^ 64 ≤ event.ackedPackets.length * kDefaultTCPMSS * kDefaultTCPMSS *
        (sender.steer event direction).velocity := by
  have small := exact.numTimesDirectionSame_lt
  have counted : addU64 sender.velocityState.numTimesDirectionSame 1 =
      sender.velocityState.numTimesDirectionSame + 1 := addU64_of_lt (by omega)
  obtain fewer | last : sender.velocityState.numTimesDirectionSame ≤ 64 ∨
      sender.velocityState.numTimesDirectionSame = 65 := by omega
  · right
    have fits : 2 ^ (addU64 sender.velocityState.numTimesDirectionSame 1 - 2) < 2 ^ 64 := by
      apply Nat.pow_lt_pow_right (by decide)
      omega
    have velocity := (velocity_steer_of_confirms confirms).trans (exact.confirmed fits)
    rw [counted, Nat.add_sub_add_right _ 1 1] at velocity
    have beyond : representableUnits + 1 ≤ event.ackedPackets.length *
        2 ^ (sender.velocityState.numTimesDirectionSame - 1) :=
      not_le.mp fun room => excess ⟨fewer, room⟩
    calc 2 ^ 64
        ≤ kDefaultTCPMSS * kDefaultTCPMSS * (representableUnits + 1) := by decide
      _ ≤ kDefaultTCPMSS * kDefaultTCPMSS * (event.ackedPackets.length *
            2 ^ (sender.velocityState.numTimesDirectionSame - 1)) :=
          Nat.mul_le_mul_left _ beyond
      _ = event.ackedPackets.length * kDefaultTCPMSS * kDefaultTCPMSS *
            (sender.steer event direction).velocity := by
          rw [velocity]
          ac_rfl
  · left
    -- the velocity has been doubled to the last 64-bit power of two
    rw [velocity_steer_of_confirms confirms, counted, exact.velocity_eq,
      VelocityState.intended, last]
    decide

theorem exact_eventStep (exact : sender.velocityState.Exact)
    (representable : sender.Representable (.congestionEvent event))
    (step : EventStep sender event next) : next.velocityState.Exact := by
  have unchanged : (sender.observed event).velocityState.Exact := by
    rw [velocityState_observed]
    exact exact
  cases step with
  | armed decided slow unset => exact unchanged
  | doubled decided slow due fits => exact unchanged
  | waiting decided slow early => exact unchanged
  | increased change decided avoidance computed fits =>
      exact exact_steer exact representable .up
  | decreased change decided computed fits => exact exact_steer exact representable .down

theorem exact_step {action : CopaAction} (exact : sender.velocityState.Exact)
    (step : RepresentableStep sender action next) : next.velocityState.Exact := by
  obtain ⟨representable, result⟩ := step
  cases action with
  | packetSent packetNumber =>
      rw [onPacketSent_eq_ok result]
      exact exact
  | congestionEvent event =>
      exact exact_eventStep exact representable (.of_onCongestionEvent result)
  | setInitialCongestionWindowInPackets congestionWindow =>
      rw [setInitialCongestionWindowInPackets_eq_ok result]
      exact exact

/-- A successful movement adds the change, or subtracts it down to the minimum
window. -/
theorem moved_eventStep {increaseCwnd : Bool} {change : Nat}
    (decided : sender.decision event = .ok increaseCwnd)
    (moves : sender.MovesWithVelocity increaseCwnd)
    (formula : change = 2 * ackedProduct event.ackedPackets.length
      (sender.steer event (directionOf increaseCwnd)).velocity / sender.congestionWindow)
    (step : EventStep sender event next) :
    next.velocityState = sender.steer event (directionOf increaseCwnd) ∧
      (increaseCwnd = true → next.congestionWindow = sender.congestionWindow + change) ∧
      (increaseCwnd = false →
        next.congestionWindow +
          min change (subU64 sender.congestionWindow minCongestionWindow) =
            sender.congestionWindow) := by
  cases step with
  | armed agreed slow unset =>
      cases decided.symm.trans agreed
      exact absurd ⟨rfl, slow⟩ moves
  | doubled agreed slow due fits =>
      cases decided.symm.trans agreed
      exact absurd ⟨rfl, slow⟩ moves
  | waiting agreed slow early =>
      cases decided.symm.trans agreed
      exact absurd ⟨rfl, slow⟩ moves
  | increased computedChange agreed avoidance computed fits =>
      cases decided.symm.trans agreed
      have same : computedChange = change :=
        (windowChange_eq_ok.mp computed).2.2.trans formula.symm
      refine ⟨rfl, fun _ => ?_, fun impossible => absurd impossible (by decide)⟩
      rw [same]
  | decreased computedChange agreed computed fits =>
      cases decided.symm.trans agreed
      have same : computedChange = change :=
        (windowChange_eq_ok.mp computed).2.2.trans formula.symm
      refine ⟨rfl, fun impossible => absurd impossible (by decide), fun _ => ?_⟩
      rw [same] at fits ⊢
      exact Nat.sub_add_cancel fits

theorem windowChange_of_lt {window acked velocity : Nat} (wide : 2 ≤ window)
    (bound : ackedProduct acked velocity < 2 ^ 64) :
    windowChange window acked velocity = .ok (2 * ackedProduct acked velocity / window) := by
  rw [windowChange_eq_ok]
  refine ⟨by omega, ?_, rfl⟩
  rw [Nat.div_lt_iff_lt_mul (by omega)]
  calc 2 * ackedProduct acked velocity
      < 2 * 2 ^ 64 := Nat.mul_lt_mul_of_pos_left bound (by decide)
    _ ≤ 2 ^ 64 * window := by
      rw [Nat.mul_comm]
      exact Nat.mul_le_mul_left _ wide

/-- In every run whose events are representable the velocity is the intended
power of two, the product formed for a movement does not wrap, and the window
moves by exactly the intended number of bytes.  An event that confirms the
direction and is not representable makes the velocity or the product wrap. -/
theorem velocity_and_movement_exact {initialWindow maxWindow : Nat}
    {actions : List CopaAction}
    (run : Run RepresentableStep (create initialWindow maxWindow) actions sender) :
    sender.velocityState.velocity = 2 ^ (sender.velocityState.numTimesDirectionSame - 2) ∧
    (∀ (event : CopaEvent) (increaseCwnd : Bool) (velocity change : Nat),
      sender.Representable (.congestionEvent event) →
      sender.decision event = .ok increaseCwnd →
      sender.MovesWithVelocity increaseCwnd →
      velocity = (sender.steer event (directionOf increaseCwnd)).velocity →
      change = 2 * (event.ackedPackets.length * kDefaultTCPMSS * kDefaultTCPMSS * velocity) /
        sender.congestionWindow →
      event.ackedPackets.length * kDefaultTCPMSS * kDefaultTCPMSS * velocity < 2 ^ 64 ∧
      (2 ≤ sender.congestionWindow →
        windowChange sender.congestionWindow event.ackedPackets.length velocity =
          .ok change) ∧
      ∀ next, sender.onCongestionEvent event = .ok next →
        next.velocityState.velocity = velocity ∧
        (increaseCwnd = true → next.congestionWindow = sender.congestionWindow + change) ∧
        (increaseCwnd = false →
          next.congestionWindow +
            min change (subU64 sender.congestionWindow minCongestionWindow) =
              sender.congestionWindow)) ∧
    ∀ (event : CopaEvent) (direction : Direction), sender.Confirms event direction →
      ¬ sender.Representable (.congestionEvent event) →
      (sender.steer event direction).velocity ≠
          2 ^ (sender.velocityState.numTimesDirectionSame - 1) ∨
        2 ^ 64 ≤ event.ackedPackets.length * kDefaultTCPMSS * kDefaultTCPMSS *
          (sender.steer event direction).velocity := by
  have exact : sender.velocityState.Exact :=
    run.invariant (fun state => state.velocityState.Exact) (VelocityState.exact_of_reset _ _ _)
      fun _ _ _ holds step => exact_step holds step
  refine ⟨exact.velocity_eq, ?_,
    fun event direction confirms => inexact_of_not_representable exact confirms⟩
  intro event increaseCwnd velocity change representable decided moves velocityShape formula
  obtain ⟨bound, product⟩ :=
    ackedProduct_of_representable exact representable (directionOf increaseCwnd)
  rw [← velocityShape] at bound product
  rw [← product] at formula
  refine ⟨bound, ?_, ?_⟩
  · intro wide
    rw [formula]
    exact windowChange_of_lt wide (by rw [product]; exact bound)
  · intro next result
    rw [velocityShape] at formula
    obtain ⟨steered, added, subtracted⟩ :=
      moved_eventStep decided moves formula (.of_onCongestionEvent result)
    exact ⟨(congrArg VelocityState.velocity steered).trans velocityShape.symm, added,
      subtracted⟩

/-- A queue builds up behind the sender: after one undelayed acknowledgement
every smoothed round-trip time brings another that is delayed by a second. -/
def standingQueue (count : Nat) : List CopaEvent :=
  ⟨1, 100, 1000, [0], []⟩ ::
    (List.range count).map fun index =>
      ⟨1001 + 1000 * index, 1000000, 1000, [index + 1], []⟩

/-- Six delayed acknowledgements have doubled the velocity twice; the seventh
doubles it again. -/
theorem velocity_and_movement_exact_queue :
    ∃ sender next : CopaSender,
      Run RepresentableStep (create 20 100) ((standingQueue 6).map .congestionEvent) sender ∧
      sender.onCongestionEvent ⟨7001, 1000000, 1000, [7], []⟩ = .ok next ∧
      next.velocityState.velocity = 8 := by
  have executed : (execute Representable perform ((standingQueue 6).map .congestionEvent)
      (create 20 100)).map (fun sender =>
        (decide (sender.Representable (.congestionEvent ⟨7001, 1000000, 1000, [7], []⟩)),
          sender.decision ⟨7001, 1000000, 1000, [7], []⟩,
          (sender.steer ⟨7001, 1000000, 1000, [7], []⟩ .down).velocity,
          (sender.onCongestionEvent ⟨7001, 1000000, 1000, [7], []⟩).isOk)) =
      some (true, .ok false, 8, true) := by
    decide +kernel
  obtain ⟨sender, result, values⟩ := Option.map_eq_some_iff.mp executed
  simp only [Prod.mk.injEq, decide_eq_true_eq] at values
  obtain ⟨representable, decided, velocity, succeeds⟩ := values
  have run : Run RepresentableStep (create 20 100) _ sender := Run.of_execute _ result
  have moves : sender.MovesWithVelocity false := by simp [MovesWithVelocity]
  have movement :=
    (velocity_and_movement_exact run).2.1 _ false _ _ representable decided moves rfl rfl
  cases performed : sender.onCongestionEvent ⟨7001, 1000000, 1000, [7], []⟩ with
  | error fault =>
      rw [performed] at succeeds
      cases succeeds
  | ok next =>
      exact ⟨sender, next, run, performed, (movement.2.2 next performed).1.trans velocity⟩

/-- After 67 round-trip times with a standing queue, of which the window spends
most at its minimum, the velocity has been doubled to zero. -/
theorem velocity_wraps_to_zero :
    ∃ (events : List CopaEvent) (sender : CopaSender),
      events.Pairwise (fun earlier later => earlier.eventTime ≤ later.eventTime) ∧
      (∀ event ∈ events, 0 < event.eventTime ∧ 0 < event.latestRtt ∧ 0 < event.smoothedRtt) ∧
      Run Step (create 20 100) (events.map .congestionEvent) sender ∧
      sender.velocityState.velocity = 0 ∧
      sender.velocityState.numTimesDirectionSame = 66 := by
  have executed : (execute (fun _ _ => True) perform
      ((standingQueue 68).map .congestionEvent) (create 20 100)).map
        (fun sender => (sender.velocityState.velocity,
          sender.velocityState.numTimesDirectionSame)) = some (0, 66) := by
    decide +kernel
  obtain ⟨sender, result, values⟩ := Option.map_eq_some_iff.mp executed
  obtain ⟨velocity, count⟩ := Prod.mk.inj values
  exact ⟨standingQueue 68, sender, by decide +kernel, by decide +kernel,
    Run.of_execute _ result, velocity, count⟩

end CopaSender

end Ns3Quic.CongestionControl
