import Ns3Quic.CongestionControl.CopaSender
import Mathlib.Algebra.Order.Ring.Nat

/-!
# The maximum window of the Copa sender

`max_congestion_window_` is the largest value that the congestion window is
meant to achieve, but no branch of the sender reads it.  What bounds the window
is time: slow start doubles it, and the velocity is doubled, at most once in a
smoothed round-trip time.  So the window, the velocity and the number of packets
acknowledged from some moment on say how large the window can become within so
many round-trip times.  A run that can be divided into stretches for each of
which the maximum leaves this room keeps the window within the maximum, and the
overflow check of its increases never fails.
-/

namespace Ns3Quic.CongestionControl

open TransitionSystem LoopRules

/-! ## Clocks that fire once in a round-trip time -/

/-- A span of time of `rounds` times `rtt`. -/
structure Span where
  start : Nat
  rtt : Nat
  rounds : Nat

namespace Span

variable {span : Span} {event : CopaEvent} {count last : Nat}

structure Covers (span : Span) (event : CopaEvent) : Prop where
  rtt_le : span.rtt ≤ event.smoothedRtt
  start_le : span.start ≤ event.eventTime
  le_end : event.eventTime ≤ span.start + span.rounds * span.rtt

/-- In the span a clock has fired so often, with a round-trip time between any
two times, and shows the time `last`. -/
structure Fired (span : Span) (count last : Nat) : Prop where
  le_rounds : count ≤ span.rounds + 1
  spaced : count = 0 ∨ span.start + (count - 1) * span.rtt ≤ last

theorem fired_zero (span : Span) (last : Nat) : span.Fired 0 last :=
  ⟨Nat.zero_le _, Or.inl rfl⟩

theorem Fired.later {time : Nat} (fired : span.Fired count last) (ordered : last ≤ time) :
    span.Fired count time :=
  ⟨fired.le_rounds, fired.spaced.imp_right fun spaced => spaced.trans ordered⟩

theorem Fired.again (fired : span.Fired count last) (positive : 0 < span.rtt)
    (covers : span.Covers event) (elapsed : last + event.smoothedRtt ≤ event.eventTime) :
    span.Fired (count + 1) event.eventTime := by
  have reached : span.start + count * span.rtt ≤ event.eventTime := by
    obtain noRounds | spaced := fired.spaced
    · rw [noRounds, Nat.zero_mul]
      exact covers.start_le
    · cases count with
      | zero =>
          rw [Nat.zero_mul]
          exact covers.start_le
      | succ earlier =>
          rw [Nat.add_sub_cancel] at spaced
          have longer := covers.rtt_le
          rw [Nat.succ_mul]
          omega
  refine ⟨Nat.succ_le_succ ?_, Or.inr reached⟩
  have within : count * span.rtt ≤ span.rounds * span.rtt :=
    Nat.le_of_add_le_add_left (reached.trans covers.le_end)
  exact Nat.le_of_mul_le_mul_right within positive

theorem Fired.power_le (fired : span.Fired count last) : 2 ^ count ≤ 2 ^ (span.rounds + 1) :=
  Nat.pow_le_pow_right (by decide) fired.le_rounds

end Span

namespace VelocityState

variable {state : VelocityState} {span : Span} {event : CopaEvent} {speed : Nat}

/-- The velocity was at most `speed` in the beginning of the span and is doubled
by a clock. -/
def Paced (state : VelocityState) (span : Span) (speed : Nat) : Prop :=
  ∃ count, span.Fired count state.lastCwndRecordTime ∧ state.velocity ≤ 2 ^ count * speed

theorem paced_of_reset {direction : Direction} {recordedCwndBytes recordTime : Nat}
    (moving : 1 ≤ speed) : Paced ⟨1, direction, 0, recordedCwndBytes, recordTime⟩ span speed :=
  ⟨0, span.fired_zero _, by simpa using moving⟩

theorem Paced.checkAndUpdateDirection (paced : state.Paced span speed) (moving : 1 ≤ speed)
    (positive : 0 < span.rtt) (covers : span.Covers event) (congestionWindow : Nat) :
    (state.checkAndUpdateDirection congestionWindow event.smoothedRtt event.eventTime).Paced
      span speed := by
  obtain ⟨count, fired, bound⟩ := paced
  unfold VelocityState.checkAndUpdateDirection
  split
  next unset => exact ⟨count, fired.later (by rw [unset]; exact Nat.zero_le _), bound⟩
  next =>
    split
    next due =>
      dsimp only
      split
      next => exact paced_of_reset moving
      next =>
        refine ⟨count + 1, fired.again positive covers due, ?_⟩
        have doubled : 2 ^ (count + 1) * speed = 2 * (2 ^ count * speed) := by
          rw [pow_succ']
          exact Nat.mul_assoc _ _ _
        dsimp only
        rw [doubled]
        split
        next => exact (mulU64_le _ _).trans (Nat.mul_le_mul_left _ bound)
        next => exact bound.trans (Nat.le_mul_of_pos_left _ (by decide))
    next => exact ⟨count, fired, bound⟩

theorem Paced.turn (paced : state.Paced span speed) (moving : 1 ≤ speed) (direction : Direction)
    (congestionWindow ackTime : Nat) :
    (state.turn direction congestionWindow ackTime).Paced span speed := by
  unfold VelocityState.turn changeDirection
  split
  next =>
    split
    next => exact paced
    next => exact paced_of_reset moving
  next => exact paced

end VelocityState

namespace CopaSender

variable {sender next first : CopaSender} {event : CopaEvent} {span : Span} {largest : Nat}

/-! ## Stretches of a run -/

def ackedPackets : List CopaAction → Nat
  | [] => 0
  | .congestionEvent event :: rest => event.ackedPackets.length + ackedPackets rest
  | _ :: rest => ackedPackets rest

def speed (sender : CopaSender) : Nat := max 1 sender.velocityState.velocity

/-- What the window can become in the span when so many packets are
acknowledged and it was not larger than `largest` before. -/
def growthLimit (sender : CopaSender) (span : Span) (largest acked : Nat) : Nat :=
  (if sender.isSlowStart then 2 ^ (span.rounds + 1) * largest else largest) +
    2 ^ span.rounds * sender.speed * (kDefaultTCPMSS * acked)

/-- The actions fall into the span, and the maximum leaves room for what the
window can become in it. -/
structure RoomFor (sender : CopaSender) (actions : List CopaAction) (span : Span)
    (largest : Nat) : Prop where
  positive : 0 < span.rtt
  covers : ∀ event, .congestionEvent event ∈ actions → span.Covers event
  window : sender.congestionWindow ≤ largest
  initial : ∀ congestionWindow, .setInitialCongestionWindowInPackets congestionWindow ∈ actions →
    minCongestionWindow ≤ congestionWindow * kDefaultTCPMSS ∧
      congestionWindow * kDefaultTCPMSS ≤ largest
  room : sender.growthLimit span largest (ackedPackets actions) ≤ sender.maxCongestionWindow

/-- An event in slow start before the next doubling is due. -/
def Quiet (sender : CopaSender) (actions : List CopaAction) : Prop :=
  ∃ event, actions = [.congestionEvent event] ∧ sender.isSlowStart = true ∧
    ¬ sender.DoublingDue event

def HasRoom (sender : CopaSender) (actions : List CopaAction) : Prop :=
  (∃ span largest, sender.RoomFor actions span largest) ∨ sender.Quiet actions

theorem ackedPackets_append (front back : List CopaAction) :
    ackedPackets (front ++ back) = ackedPackets front + ackedPackets back := by
  induction front with
  | nil => exact (Nat.zero_add _).symm
  | cons action rest inductionHypothesis =>
      cases action <;> simp only [List.cons_append, ackedPackets, inductionHypothesis,
        Nat.add_assoc]

theorem growthLimit_mono (sender : CopaSender) (span : Span) (largest : Nat) {fewer more : Nat}
    (ordered : fewer ≤ more) :
    sender.growthLimit span largest fewer ≤ sender.growthLimit span largest more :=
  Nat.add_le_add_left (Nat.mul_le_mul_left _ (Nat.mul_le_mul_left _ ordered)) _

theorem growthLimit_add (sender : CopaSender) (span : Span) (largest fewer more : Nat) :
    sender.growthLimit span largest (fewer + more) =
      sender.growthLimit span largest fewer +
        2 ^ span.rounds * sender.speed * (kDefaultTCPMSS * more) := by
  unfold growthLimit
  rw [Nat.mul_add, Nat.mul_add, Nat.add_assoc]

/-! ## Growth in a stretch -/

structure Grown (first : CopaSender) (span : Span) (largest acked : Nat)
    (sender : CopaSender) : Prop where
  max_eq : sender.maxCongestionWindow = first.maxCongestionWindow
  least : minCongestionWindow ≤ sender.congestionWindow
  velocity : sender.velocityState.Paced span first.speed
  doublings : sender.isSlowStart = true → first.isSlowStart = true ∧
    ∃ count, span.Fired count sender.lastCwndDoubleTime ∧
      sender.congestionWindow ≤ 2 ^ count * largest
  window : sender.congestionWindow ≤ first.growthLimit span largest acked

theorem Grown.start (least : minCongestionWindow ≤ sender.congestionWindow)
    (window : sender.congestionWindow ≤ largest) :
    Grown sender span largest 0 sender where
  max_eq := rfl
  least := least
  velocity := ⟨0, span.fired_zero _, by simp [speed]⟩
  doublings slow := ⟨slow, 0, span.fired_zero _, by simpa using window⟩
  window := by
    have atLeast : largest ≤
        if sender.isSlowStart then 2 ^ (span.rounds + 1) * largest else largest := by
      split
      next => exact Nat.le_mul_of_pos_left _ (Nat.two_pow_pos _)
      next => exact le_rfl
    exact (window.trans atLeast).trans (Nat.le_add_right _ _)

/-- Wrapping only makes an increase smaller. -/
theorem windowChange_le {congestionWindow ackedCount velocity change : Nat}
    (computed : windowChange congestionWindow ackedCount velocity = .ok change) :
    change ≤ 2 * (ackedCount * kDefaultTCPMSS * kDefaultTCPMSS * velocity) /
      congestionWindow := by
  rw [(windowChange_eq_ok.mp computed).2.2, ackedProduct_eq_mod]
  apply Nat.div_le_div_right
  apply Nat.mul_le_mul_left
  exact Nat.mod_le _ _

/-- The speed allows one doubling per round-trip time and one more, of which the
minimal window of four segments takes up one. -/
theorem windowChange_le_of_paced {state : VelocityState} {speed ackedCount change : Nat}
    {congestionWindow : Nat} (paced : state.Paced span speed)
    (least : minCongestionWindow ≤ congestionWindow)
    (computed : windowChange congestionWindow ackedCount state.velocity = .ok change) :
    change ≤ 2 ^ span.rounds * speed * (kDefaultTCPMSS * ackedCount) := by
  obtain ⟨count, fired, bound⟩ := paced
  have velocity : state.velocity ≤ 2 * (2 ^ span.rounds * speed) := by
    calc state.velocity
        ≤ 2 ^ (span.rounds + 1) * speed := bound.trans (Nat.mul_le_mul_right _ fired.power_le)
      _ = 2 * (2 ^ span.rounds * speed) := by
          rw [pow_succ']
          exact Nat.mul_assoc _ _ _
  refine (windowChange_le computed).trans (Nat.div_le_of_le_mul ?_)
  calc 2 * (ackedCount * kDefaultTCPMSS * kDefaultTCPMSS * state.velocity)
      ≤ 2 * (ackedCount * kDefaultTCPMSS * kDefaultTCPMSS * (2 * (2 ^ span.rounds * speed))) :=
        Nat.mul_le_mul_left _ (Nat.mul_le_mul_left _ velocity)
    _ = minCongestionWindow * (2 ^ span.rounds * speed * (kDefaultTCPMSS * ackedCount)) := by
        rw [minCongestionWindow, show 4 = 2 * 2 from rfl]
        ac_rfl
    _ ≤ congestionWindow * (2 ^ span.rounds * speed * (kDefaultTCPMSS * ackedCount)) :=
        Nat.mul_le_mul_right _ least

theorem Grown.paced_steer {acked : Nat} (grown : Grown first span largest acked sender)
    (positive : 0 < span.rtt) (covers : span.Covers event) (direction : Direction) :
    (sender.steer event direction).Paced span first.speed :=
  (grown.velocity.checkAndUpdateDirection (le_max_left _ _) positive covers _).turn
    (le_max_left _ _) _ _ _

theorem Grown.doubled {acked : Nat} (grown : Grown first span largest acked sender)
    (positive : 0 < span.rtt) (covers : span.Covers event) (slow : sender.isSlowStart = true)
    (due : sender.DoublingDue event) :
    first.isSlowStart = true ∧
      ∃ count, span.Fired count event.eventTime ∧
        sender.congestionWindow + sender.congestionWindow ≤ 2 ^ count * largest := by
  obtain ⟨slowBefore, count, fired, bound⟩ := grown.doublings slow
  refine ⟨slowBefore, count + 1, fired.again positive covers (le_of_lt due.2), ?_⟩
  rw [pow_succ', Nat.mul_assoc, Nat.two_mul]
  exact Nat.add_le_add bound bound

theorem Grown.doubled_le {acked : Nat} (grown : Grown first span largest acked sender)
    (positive : 0 < span.rtt) (covers : span.Covers event) (slow : sender.isSlowStart = true)
    (due : sender.DoublingDue event) :
    sender.congestionWindow + sender.congestionWindow ≤
      first.growthLimit span largest (acked + event.ackedPackets.length) := by
  obtain ⟨slowBefore, count, fired, bound⟩ := grown.doubled positive covers slow due
  unfold growthLimit
  rw [if_pos slowBefore]
  exact (bound.trans (Nat.mul_le_mul_right _ fired.power_le)).trans (Nat.le_add_right _ _)

theorem Grown.increased_le {acked change : Nat} (grown : Grown first span largest acked sender)
    (positive : 0 < span.rtt) (covers : span.Covers event)
    (computed : windowChange sender.congestionWindow event.ackedPackets.length
      (sender.steer event .up).velocity = .ok change) :
    sender.congestionWindow + change ≤
      first.growthLimit span largest (acked + event.ackedPackets.length) := by
  rw [growthLimit_add]
  exact Nat.add_le_add grown.window
    (windowChange_le_of_paced (grown.paced_steer positive covers .up) grown.least computed)

theorem Grown.eventStep {acked : Nat} (grown : Grown first span largest acked sender)
    (positive : 0 < span.rtt) (covers : span.Covers event)
    (fits : sender.congestionWindow < 2 ^ 64) (step : EventStep sender event next) :
    Grown first span largest (acked + event.ackedPackets.length) next := by
  have sameMax := (sender.maxCongestionWindow_observed event).trans grown.max_eq
  have sameWindow := sender.congestionWindow_observed event
  have sameVelocity : (sender.observed event).velocityState.Paced span first.speed := by
    rw [velocityState_observed]
    exact grown.velocity
  have window := grown.window.trans
    (growthLimit_mono first span largest (Nat.le_add_right acked event.ackedPackets.length))
  cases step with
  | armed decided slow unset =>
      refine ⟨sameMax, by rw [sameWindow]; exact grown.least, sameVelocity, fun _ => ?_,
        by rw [sameWindow]; exact window⟩
      obtain ⟨slowBefore, count, fired, bound⟩ := grown.doublings slow
      rw [unset] at fired
      exact ⟨slowBefore, count, fired.later (Nat.zero_le _), by rw [sameWindow]; exact bound⟩
  | doubled decided slow due noOverflow =>
      exact ⟨sameMax, grown.least.trans (Nat.le_add_right _ _), sameVelocity,
        fun _ => grown.doubled positive covers slow due,
        grown.doubled_le positive covers slow due⟩
  | waiting decided slow early =>
      refine ⟨sameMax, by rw [sameWindow]; exact grown.least, sameVelocity, fun _ => ?_,
        by rw [sameWindow]; exact window⟩
      rw [lastCwndDoubleTime_observed, sameWindow]
      exact grown.doublings slow
  | increased change decided avoidance computed noOverflow =>
      refine ⟨sameMax, grown.least.trans (Nat.le_add_right _ _),
        grown.paced_steer positive covers .up, fun slow => ?_,
        grown.increased_le positive covers computed⟩
      cases (isSlowStart_observed sender event).symm.trans slow |>.symm.trans avoidance
  | decreased change decided computed noUnderflow =>
      refine ⟨sameMax, ?_, grown.paced_steer positive covers .down, fun slow => ?_,
        (Nat.sub_le _ _).trans window⟩
      · have room := subU64_of_le grown.least fits
        have least := grown.least
        dsimp only
        omega
      · cases slow

/-! ## The maximum -/

structure WithinMax (sender : CopaSender) (maxBytes : Nat) : Prop where
  max_eq : sender.maxCongestionWindow = maxBytes
  max_lt : maxBytes < 2 ^ 64
  least : minCongestionWindow ≤ sender.congestionWindow
  window_le : sender.congestionWindow ≤ maxBytes

theorem RoomFor.limit_le {actions before : List CopaAction}
    (room : first.RoomFor actions span largest) (begun : before <+: actions) :
    first.growthLimit span largest (ackedPackets before) ≤ first.maxCongestionWindow := by
  obtain ⟨rest, rfl⟩ := begun
  have fewer : ackedPackets before ≤ ackedPackets (before ++ rest) := by
    rw [ackedPackets_append]
    exact Nat.le_add_right _ _
  exact (growthLimit_mono first span largest fewer).trans room.room

theorem ackedPackets_concat_event (before : List CopaAction) (event : CopaEvent) :
    ackedPackets (before ++ [.congestionEvent event]) =
      ackedPackets before + event.ackedPackets.length :=
  ackedPackets_append before _

theorem Grown.step {actions before : List CopaAction} {action : CopaAction}
    (room : first.RoomFor actions span largest) (fits : first.maxCongestionWindow < 2 ^ 64)
    (begun : before ++ [action] <+: actions)
    (grown : Grown first span largest (ackedPackets before) sender)
    (step : Step sender action next) :
    Grown first span largest (ackedPackets (before ++ [action])) next := by
  have limit := room.limit_le ((List.prefix_append _ _).trans begun)
  have member : action ∈ actions := begun.subset (by simp)
  have result := step.2
  cases action with
  | packetSent packetNumber =>
      rw [onPacketSent_eq_ok result, ackedPackets_append]
      exact { grown with }
  | congestionEvent event =>
      rw [ackedPackets_concat_event]
      exact grown.eventStep room.positive (room.covers event member)
        ((grown.window.trans limit).trans_lt fits) (.of_onCongestionEvent result)
  | setInitialCongestionWindowInPackets congestionWindow =>
      rw [setInitialCongestionWindowInPackets_eq_ok result, ackedPackets_append]
      split
      next slow =>
        obtain ⟨atLeast, atMost⟩ := room.initial congestionWindow member
        obtain ⟨slowBefore, count, fired, -⟩ := grown.doublings slow
        have small : congestionWindow * kDefaultTCPMSS ≤
            first.growthLimit span largest (ackedPackets before) := by
          unfold growthLimit
          rw [if_pos slowBefore]
          exact (atMost.trans (Nat.le_mul_of_pos_left _ (Nat.two_pow_pos _))).trans
            (Nat.le_add_right _ _)
        rw [mulU64_of_lt ((small.trans limit).trans_lt fits)]
        exact { grown with
          least := atLeast
          doublings := fun _ => ⟨slowBefore, count, fired,
            atMost.trans (Nat.le_mul_of_pos_left _ (Nat.two_pow_pos _))⟩
          window := small }
      next => exact { grown with }

theorem WithinMax.stretch {maxBytes : Nat} {actions front : List CopaAction}
    (within : first.WithinMax maxBytes) (room : first.RoomFor actions span largest)
    (begun : front <+: actions) (run : Run Step first front sender) :
    Grown first span largest (ackedPackets front) sender ∧ sender.WithinMax maxBytes := by
  have fits : first.maxCongestionWindow < 2 ^ 64 := within.max_eq.trans_lt within.max_lt
  have grown : Grown first span largest (ackedPackets front) sender :=
    run.along (fun before state => Grown first span largest (ackedPackets before) state) begun
      (.start within.least room.window)
      fun _ _ _ _ whole holds step => holds.step room fits whole step
  exact ⟨grown, grown.max_eq.trans within.max_eq, within.max_lt, grown.least,
    (grown.window.trans (room.limit_le begun)).trans_eq within.max_eq⟩

theorem Grown.perform_ne_overflow {actions before : List CopaAction} {action : CopaAction}
    (room : first.RoomFor actions span largest) (fits : first.maxCongestionWindow < 2 ^ 64)
    (begun : before ++ [action] <+: actions)
    (grown : Grown first span largest (ackedPackets before) sender) :
    sender.perform action ≠ .error .overflowBytesInFlight := by
  have limit := room.limit_le begun
  have member : action ∈ actions := begun.subset (by simp)
  intro result
  cases action with
  | packetSent packetNumber => cases (check_eq_error.mp result).2
  | congestionEvent event =>
      rw [ackedPackets_concat_event] at limit
      have covers := room.covers event member
      cases EventFault.of_onCongestionEvent result with
      | doubling decided slow due overflow =>
          have small := grown.doubled_le room.positive covers slow due
          omega
      | addition change decided avoidance computed overflow =>
          have small := grown.increased_le room.positive covers computed
          omega
  | setInitialCongestionWindowInPackets congestionWindow => cases result

theorem WithinMax.quiet {maxBytes : Nat} (within : sender.WithinMax maxBytes)
    (slow : sender.isSlowStart = true) (early : ¬ sender.DoublingDue event)
    (result : sender.onCongestionEvent event = .ok next) : next.WithinMax maxBytes := by
  have sameMax := (sender.maxCongestionWindow_observed event).trans within.max_eq
  have sameWindow := sender.congestionWindow_observed event
  cases EventStep.of_onCongestionEvent result with
  | armed decided slow unset =>
      exact ⟨sameMax, within.max_lt, sameWindow ▸ within.least, sameWindow ▸ within.window_le⟩
  | doubled decided slow due noOverflow => exact absurd due early
  | waiting decided slow early =>
      exact ⟨sameMax, within.max_lt, sameWindow ▸ within.least, sameWindow ▸ within.window_le⟩
  | increased change decided avoidance computed noOverflow =>
      cases slow.symm.trans avoidance
  | decreased change decided computed noUnderflow =>
      have room := subU64_of_le within.least (within.window_le.trans_lt within.max_lt)
      have least := within.least
      have bound := within.window_le
      refine ⟨sameMax, within.max_lt, ?_, ?_⟩
      · dsimp only
        omega
      · dsimp only
        omega

theorem onCongestionEvent_ne_overflow_of_quiet (slow : sender.isSlowStart = true)
    (early : ¬ sender.DoublingDue event) :
    sender.onCongestionEvent event ≠ .error .overflowBytesInFlight := by
  intro result
  cases EventFault.of_onCongestionEvent result with
  | doubling decided slow due overflow => exact early due
  | addition change decided avoidance computed overflow => cases slow.symm.trans avoidance

theorem WithinMax.begun {maxBytes : Nat} {actions front : List CopaAction}
    (within : first.WithinMax maxBytes) (room : first.HasRoom actions) (begun : front <+: actions)
    (run : Run Step first front sender) :
    sender.WithinMax maxBytes ∧ ∀ action, front ++ [action] <+: actions →
      sender.perform action ≠ .error .overflowBytesInFlight := by
  obtain ⟨span, largest, room⟩ | ⟨event, rfl, slow, early⟩ := room
  · obtain ⟨grown, stays⟩ := within.stretch room begun run
    exact ⟨stays, fun action whole =>
      grown.perform_ne_overflow room (within.max_eq.trans_lt within.max_lt) whole⟩
  · rcases run.of_prefix_singleton begun with ⟨rfl, rfl⟩ | ⟨rfl, step⟩
    · refine ⟨within, fun action whole => ?_⟩
      obtain ⟨-, rfl⟩ := Run.eq_of_concat_prefix_singleton whole
      exact onCongestionEvent_ne_overflow_of_quiet slow early
    · refine ⟨within.quiet slow early step.2, fun action whole => ?_⟩
      cases (Run.eq_of_concat_prefix_singleton whole).1

/-- In every run that consists of stretches with room, and in the stretch that
follows, the congestion window is within the maximum and no increase overflows. -/
theorem congestion_window_within_max {initialWindow maxWindow : Nat}
    {stretches : List (List CopaAction)} {actions front : List CopaAction}
    (atLeast : minCongestionWindow ≤ mulU64 initialWindow kDefaultTCPMSS)
    (ordered : mulU64 initialWindow kDefaultTCPMSS ≤ mulU64 maxWindow kDefaultTCPMSS)
    (earlier : Run (Stretch Step HasRoom) (create initialWindow maxWindow) stretches first)
    (room : first.HasRoom actions) (begun : front <+: actions) (run : Run Step first front sender) :
    sender.maxCongestionWindow = mulU64 maxWindow kDefaultTCPMSS ∧
      sender.congestionWindow ≤ sender.maxCongestionWindow ∧
      ∀ action, front ++ [action] <+: actions →
        sender.perform action ≠ .error .overflowBytesInFlight := by
  have within : first.WithinMax (mulU64 maxWindow kDefaultTCPMSS) :=
    earlier.invariant (fun state => state.WithinMax (mulU64 maxWindow kDefaultTCPMSS))
      ⟨rfl, mulU64_lt _ _, atLeast, ordered⟩
      fun _ _ _ holds stretch => (holds.begun stretch.1 (List.prefix_refl _) stretch.2).1
  obtain ⟨stays, noOverflow⟩ := within.begun room begun run
  exact ⟨stays.max_eq, stays.window_le.trans_eq stays.max_eq.symm, noOverflow⟩

def firstDoubling : List CopaAction :=
  [.congestionEvent ⟨1, 100, 1000, [1], []⟩, .congestionEvent ⟨1002, 100, 1000, [2], []⟩]

/-- The maximum has room for the doublings that two round-trip times allow, and
then for another one with three acknowledged packets. -/
theorem congestion_window_within_max_doubled :
    ∃ first sender : CopaSender,
      Run (Stretch Step HasRoom) (create 10 100) [firstDoubling] first ∧
      Run Step first [.congestionEvent ⟨2003, 100, 1000, [3, 4, 5], []⟩] sender ∧
      sender.congestionWindow = 40 * kDefaultTCPMSS ∧
      sender.congestionWindow ≤ sender.maxCongestionWindow := by
  have executed : (execute (fun _ _ => True) perform firstDoubling (create 10 100)).map
      (fun first => (first.congestionWindow,
        first.growthLimit ⟨2003, 1000, 0⟩ (20 * kDefaultTCPMSS) 3, first.maxCongestionWindow,
        (execute (fun _ _ => True) perform
          [.congestionEvent ⟨2003, 100, 1000, [3, 4, 5], []⟩] first).map (·.congestionWindow))) =
      some (20 * kDefaultTCPMSS, 43 * kDefaultTCPMSS, 100 * kDefaultTCPMSS,
        some (40 * kDefaultTCPMSS)) := by
    decide +kernel
  obtain ⟨first, reached, values⟩ := Option.map_eq_some_iff.mp executed
  simp only [Prod.mk.injEq] at values
  obtain ⟨window, limit, maximum, later⟩ := values
  obtain ⟨sender, performed, doubled⟩ := Option.map_eq_some_iff.mp later
  have roomAtFirst : (create 10 100).RoomFor firstDoubling ⟨1, 1000, 2⟩ (10 * kDefaultTCPMSS) := by
    refine ⟨by decide, ?_, by decide, by simp [firstDoubling], by decide⟩
    intro event member
    simp only [firstDoubling, List.mem_cons, CopaAction.congestionEvent.injEq, List.not_mem_nil,
      or_false] at member
    obtain rfl | rfl := member <;> exact ⟨by decide, by decide, by decide⟩
  have roomLater : first.RoomFor [.congestionEvent ⟨2003, 100, 1000, [3, 4, 5], []⟩]
      ⟨2003, 1000, 0⟩ (20 * kDefaultTCPMSS) := by
    refine ⟨by decide, ?_, window.le, by simp, ?_⟩
    · intro event member
      simp only [List.mem_singleton, CopaAction.congestionEvent.injEq] at member
      subst member
      exact ⟨by decide, by decide, by decide⟩
    · rw [maximum]
      exact limit.le.trans (by decide)
  have early : Run (Stretch Step HasRoom) (create 10 100) [firstDoubling] first :=
    .snoc .start ⟨Or.inl ⟨_, _, roomAtFirst⟩, Run.of_execute _ reached⟩
  have run : Run Step first _ sender := Run.of_execute _ performed
  exact ⟨first, sender, early, run, doubled,
    (congestion_window_within_max (by decide) (by decide) early (Or.inl ⟨_, _, roomLater⟩)
      (List.prefix_refl _) run).2.1⟩

def emptyQueue (count : Nat) : List CopaAction :=
  (List.range count).map fun index =>
    .congestionEvent ⟨1 + 2000 * index, 100, 1000, [index], []⟩

/-- Slow start doubles the window beyond the maximum, and after fifty more
round trips the overflow check fails. -/
theorem slow_start_exceeds_max :
    (∃ sender : CopaSender,
      Run Step (create 10 10) (emptyQueue 2) sender ∧
        sender.maxCongestionWindow < sender.congestionWindow) ∧
    ∃ sender : CopaSender,
      Run Step (create 10 10) (emptyQueue 51) sender ∧
        sender.perform (.congestionEvent ⟨102001, 100, 1000, [51], []⟩) =
          .error .overflowBytesInFlight := by
  have exceeded : (execute (fun _ _ => True) perform (emptyQueue 2) (create 10 10)).map
      (fun sender => decide (sender.maxCongestionWindow < sender.congestionWindow)) =
        some true := by
    decide +kernel
  have overflow : (execute (fun _ _ => True) perform (emptyQueue 51) (create 10 10)).map
      (fun sender => sender.perform (.congestionEvent ⟨102001, 100, 1000, [51], []⟩)) =
        some (.error .overflowBytesInFlight) := by
    decide +kernel
  obtain ⟨_, firstResult, larger⟩ := Option.map_eq_some_iff.mp exceeded
  obtain ⟨_, secondResult, thrown⟩ := Option.map_eq_some_iff.mp overflow
  exact ⟨⟨_, Run.of_execute _ firstResult, of_decide_eq_true larger⟩,
    ⟨_, Run.of_execute _ secondResult, thrown⟩⟩

end CopaSender

end Ns3Quic.CongestionControl
