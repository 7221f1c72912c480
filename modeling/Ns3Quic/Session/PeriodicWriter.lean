import Ns3Quic.Alarm.AlarmClock
import Ns3Quic.Session.TransportStream

/-!
# The bandwidth channel and its alarm

`BandwidthWriteChannel` owns an alarm of the engine.  `StartFillData` sets it
to 50 ms from now, and the delegate of the alarm calls `OnTimeout`, which
writes and updates the alarm to 50 ms later.  Here the channel of
`BandwidthWriteChannel` runs in a world of alarms: everybody else creates,
sets, cancels, updates and destroys other alarms, also while the channel
writes.
-/

namespace Ns3Quic.Session

open TransitionSystem LoopRules
open Alarm (Machine World WorldAction AlarmFault Ns3Alarm)

/-- `kAlarmGranularity`, in microseconds. -/
def kAlarmGranularity : Int := 1000

structure WriterWorld (Alarm : Type) where
  world : World Alarm
  channel : BandwidthWriteChannel
  /-- `WriteDelegate::OnAlarm` was called and has not returned. -/
  firing : Bool
  /-- The time at which `StartFillData` was called. -/
  startedUs : Option Int
  /-- The times at which `OnTimeout` was called. -/
  timeoutsUs : List Int

inductive WriterAction (Alarm : Type) where
  | startFillData (answers : Nat → SessionAnswer)
  | onTimeout (answers : Nat → SessionAnswer)
  | onCanWrite (answers : Nat → SessionAnswer)
  /-- `OnDestroy`, and the destructor of the channel. -/
  | destroy
  /-- The session sends buffered data. -/
  | writeBufferedData (answer : SessionAnswer)
  | closeWriteSide
  /-- The simulation goes on, or other code uses its alarms. -/
  | world (action : WorldAction Alarm)

def isUserCode {Alarm : Type} : WorldAction Alarm → Bool
  | .construct _ | .set _ _ | .cancel _ | .update _ _ _ | .destroy _ | .shutdown => true
  | .advance _ | .timerExpires | .onAlarm | .onAlarmReturns | .endOfTimeout => false

namespace WriterWorld

variable {Alarm : Type} [DecidableEq Alarm]

def create (own : Alarm) (world : World Alarm) (stream : QuicStream) : WriterWorld Alarm where
  world := world.construct own
  channel := .create stream
  firing := false
  startedUs := none
  timeoutsUs := []

/-- `if (alarm_ && alarm_->IsSet()) alarm_->Cancel()`. -/
def cancelIfSet (own : Alarm) (world : World Alarm) : Except AlarmFault (World Alarm) := do
  let state ← world.get own
  if state.IsSet then world.cancel own else pure world

/-- User code uses the alarm, or shuts the engine down. -/
def concerns (own : Alarm) : WorldAction Alarm → Bool
  | .construct other | .set other _ | .cancel other | .update other _ _ | .destroy other =>
      decide (other = own)
  | .shutdown => true
  | .advance _ | .timerExpires | .onAlarm | .onAlarmReturns | .endOfTimeout => false

def fires (own : Alarm) (world : World Alarm) : WorldAction Alarm → Bool
  | .onAlarm => world.machine.waiting.head?.any fun node => node.value = own
  | _ => false

/-- `v` is the character of `ContentInit`. -/
def perform (own : Alarm) (v : UInt8) (writer : WriterWorld Alarm) :
    WriterAction Alarm → Except AlarmFault (WriterWorld Alarm)
  | .startFillData answers => do
      let channel := writer.channel.writeData v answers
      let now := writer.world.nowUs
      let world ← writer.world.set own (now + kWriteDelta)
      pure { writer with world := world, channel := channel, startedUs := some now }
  | .onTimeout answers => do
      let now := writer.world.nowUs
      let channel := writer.channel.writeData v answers
      let world ← writer.world.update own (now + kWriteDelta) kAlarmGranularity
      pure { writer with
        world := world
        channel := channel
        firing := false
        timeoutsUs := writer.timeoutsUs ++ [now] }
  | .onCanWrite answers => .ok { writer with channel := writer.channel.writeData v answers }
  | .destroy => do
      let world ← cancelIfSet own writer.world
      let world ← cancelIfSet own world
      let world ← world.destroy own
      pure { writer with world := world }
  | .writeBufferedData answer =>
      .ok { writer with channel := writer.channel.perform v (.writeBufferedData answer) }
  | .closeWriteSide => .ok { writer with channel := writer.channel.perform v .closeWriteSide }
  | .world action => do
      let world ← writer.world.perform action
      pure { writer with world := world, firing := writer.firing || fires own writer.world action }

/-- The points at which an action can happen.  Only the channel uses its alarm,
the engine is not shut down under it, and once the alarm has fired the simulation
waits for `OnTimeout`, during which the channel is not destroyed. -/
def Enabled (own : Alarm) (writer : WriterWorld Alarm) : WriterAction Alarm → Prop
  | .startFillData _ =>
      writer.world.UserCodeRuns ∧ (writer.world.alarms own).isSome = true ∧
        writer.startedUs = none
  | .onTimeout _ => writer.firing = true
  | .onCanWrite _ => (writer.world.alarms own).isSome = true
  | .destroy =>
      writer.world.UserCodeRuns ∧ (writer.world.alarms own).isSome = true ∧
        writer.firing = false
  | .writeBufferedData _ | .closeWriteSide => True
  | .world action =>
      writer.world.Enabled action ∧ concerns own action = false ∧
        (writer.firing = true → isUserCode action = true)

def Step (own : Alarm) (v : UInt8) :
    WriterWorld Alarm → WriterAction Alarm → WriterWorld Alarm → Prop :=
  Guarded (Enabled own) (perform own v)

instance (own : Alarm) (writer : WriterWorld Alarm) (action : WriterAction Alarm) :
    Decidable (writer.Enabled own action) :=
  match action with
  | .startFillData _ | .destroy | .world _ => inferInstanceAs (Decidable (_ ∧ _ ∧ _))
  | .onTimeout _ | .onCanWrite _ => inferInstanceAs (Decidable (_ = true))
  | .writeBufferedData _ | .closeWriteSide => inferInstanceAs (Decidable True)

def schedule (startUs : Int) (count : Nat) : List Int :=
  (List.range count).map fun round => startUs + kWriteDelta * (round + 1)

/-- What is known of the alarm and of the calls of `OnTimeout`. -/
inductive Phase (own : Alarm) (writer : WriterWorld Alarm) : Prop where
  | idle : writer.startedUs = none → writer.timeoutsUs = [] → writer.firing = false →
      writer.world.alarms own = some .create → Phase own writer
  | waiting (startUs : Int) (count : Nat) : writer.startedUs = some startUs →
      writer.timeoutsUs = schedule startUs count → writer.firing = false →
      writer.world.clock.due own = some (startUs + kWriteDelta * (count + 1)) →
      startUs + kWriteDelta * count ≤ writer.world.nowUs →
      writer.world.nowUs ≤ startUs + kWriteDelta * (count + 1) → Phase own writer
  | firing (startUs : Int) (count : Nat) (state : Ns3Alarm) : writer.startedUs = some startUs →
      writer.timeoutsUs = schedule startUs count → writer.firing = true →
      writer.world.alarms own = some state → state.registered = false → state.deadlineUs = 0 →
      writer.world.nowUs = startUs + kWriteDelta * (count + 1) → Phase own writer
  | gone (count : Nat) : writer.firing = false → writer.world.alarms own = none →
      writer.timeoutsUs = (writer.startedUs.map fun startUs => schedule startUs count).getD [] →
      Phase own writer

structure Invariant (own : Alarm) (writer : WriterWorld Alarm) : Prop where
  world : writer.world.Invariant
  punctual : writer.world.Punctual
  phase : Phase own writer

section Steps

variable {own : Alarm} {v : UInt8} {writer next : WriterWorld Alarm}
  {action : WorldAction Alarm} {world : World Alarm}

theorem untouched_of_concerns (other : concerns own action = false) :
    ¬World.Touches own action ∧ action ≠ .construct own := by
  cases action <;> simp_all [concerns, World.Touches]

theorem fires_eq_false_iff (enabled : writer.world.Enabled action) :
    fires own writer.world action = false ↔
      AlarmClock.Event.rings own (writer.world.events action) = [] := by
  cases action with
  | onAlarm =>
      obtain ⟨node, rest, frame⟩ := enabled
      have waiting : writer.world.machine.waiting = node :: rest := by
        simp [Machine.waiting, frame]
      simp [fires, World.events, waiting, AlarmClock.Event.rings, AlarmClock.Event.rungAt]
  | update other newDeadlineUs granularityUs =>
      simp only [fires, World.events, true_iff]
      split
      next => rfl
      next => split <;> rfl
  | shutdown =>
      simp [fires, World.events, AlarmClock.Event.rings, AlarmClock.Event.rungAt]
  | construct | set | cancel | destroy | advance | timerExpires | onAlarmReturns | endOfTimeout =>
      exact iff_of_true rfl rfl

theorem schedule_succ (startUs : Int) (count : Nat) :
    schedule startUs (count + 1) =
      schedule startUs count ++ [startUs + kWriteDelta * (count + 1)] := by
  simp [schedule, List.range_succ]

theorem nowUs_of_userCode (refines : World.Refines writer.world world (writer.world.events action))
    (userCode : isUserCode action = true) : world.nowUs = writer.world.nowUs := by
  refine (AlarmClock.Clock.now_of_run refines.run).2 fun time present => ?_
  cases action with
  | update other newDeadlineUs granularityUs =>
      simp only [World.events] at present
      split at present
      next => simp at present
      next => split at present <;> simp at present
  | construct | set | cancel | destroy | shutdown => simp [World.events] at present
  | advance | timerExpires | onAlarm | onAlarmReturns | endOfTimeout => cases userCode

omit [DecidableEq Alarm] in
theorem Phase.of_arms {startUs : Int} {count : Nat}
    (arms : World.Arms writer.world next.world own (writer.world.nowUs + kWriteDelta))
    (started : next.startedUs = some startUs)
    (timeouts : next.timeoutsUs = schedule startUs count) (quiet : next.firing = false)
    (now : writer.world.nowUs = startUs + kWriteDelta * count) : Phase own next := by
  obtain ⟨state, hasState, registered, deadline⟩ := arms.state
  have due : next.world.dueUs own = some (startUs + kWriteDelta * (count + 1)) := by
    rw [World.dueUs_of_registered hasState registered, deadline, arms.now]
    congr 1
    simp only [kWriteDelta] at now ⊢
    push_cast at now ⊢
    omega
  have same := arms.now
  refine .waiting startUs count started timeouts quiet due ?_ ?_
  · rw [same, now]
  · rw [same, now]
    simp only [kWriteDelta]
    push_cast
    omega

omit [DecidableEq Alarm] in
theorem dueUs_of_unregistered {state : Ns3Alarm} (hasState : world.alarms own = some state)
    (unregistered : state.registered = false) : world.clock.due own = none := by
  refine World.dueUs_eq_none fun other hasOther => ?_
  rw [hasState, Option.some.injEq] at hasOther
  rw [← hasOther, unregistered]

theorem of_fires (step : World.Step writer.world action world)
    (fired : fires own writer.world action = true) :
    (∃ state, world.alarms own = some state ∧ state.registered = false ∧ state.deadlineUs = 0) ∧
      world.nowUs = writer.world.nowUs := by
  obtain ⟨enabled, performed⟩ := step
  cases action with
  | onAlarm =>
      obtain ⟨node, rest, frame⟩ := enabled
      have waiting : writer.world.machine.waiting = node :: rest := by
        simp [Machine.waiting, frame]
      obtain rfl : node.value = own := by simpa [fires, waiting] using fired
      obtain ⟨state, _, same⟩ :=
        bind_eq_ok.mp (by simpa [World.perform, World.onAlarm, waiting] using performed)
      obtain rfl := Except.ok.inj same
      refine ⟨⟨state.onAlarm, World.put_alarms _ _ _, ?_, ?_⟩, ?_⟩
      · rw [Ns3Alarm.onAlarm_eq]
      · rw [Ns3Alarm.onAlarm_eq]
      · simp [World.nowUs, World.put, Machine.onAlarm, frame]
  | construct | set | cancel | update | destroy | shutdown | advance | timerExpires
  | onAlarmReturns | endOfTimeout => cases fired

theorem events_untouched (world : World Alarm) (other : concerns own action = false) :
    ∀ event ∈ world.events action, ¬event.Touches own :=
  fun _ present touches =>
    (untouched_of_concerns other).1 (World.touches_of_mem_events present touches)

theorem Invariant.keeps (inv : Invariant own writer) (other : concerns own action = false)
    (step : World.Step writer.world action world)
    (silent : AlarmClock.Event.rings own (writer.world.events action) = []) :
    fires own writer.world action = false ∧ world.alarms own = writer.world.alarms own := by
  obtain ⟨untouched, old⟩ := untouched_of_concerns other
  exact ⟨(fires_eq_false_iff step.1).mpr silent,
    inv.world.step_alarms step untouched old (List.filterMap_eq_nil_iff.mp silent)⟩

theorem Invariant.keeps_of_off (inv : Invariant own writer) (other : concerns own action = false)
    (step : World.Step writer.world action world) (off : writer.world.clock.due own = none) :
    fires own writer.world action = false ∧ world.alarms own = writer.world.alarms own := by
  have refines := inv.world.step_refines inv.punctual step
  exact inv.keeps other step
    (AlarmClock.Clock.silent_of_run off refines.run (events_untouched writer.world other)).2

omit [DecidableEq Alarm] in
theorem dueUs_of_gone (gone : world.alarms own = none) : world.clock.due own = none :=
  World.dueUs_eq_none fun state hasState => by simp [gone] at hasState

theorem Invariant.world_step (inv : Invariant own writer)
    (enabled : Enabled own writer (.world action))
    (performed : perform own v writer (.world action) = .ok next) : Invariant own next := by
  obtain ⟨world, worldPerformed, same⟩ := bind_eq_ok.mp performed
  obtain rfl := Except.ok.inj same
  obtain ⟨worldEnabled, other, userCode⟩ := enabled
  have step : World.Step writer.world action world := ⟨worldEnabled, worldPerformed⟩
  have refines := inv.world.step_refines inv.punctual step
  have eventsUntouched := events_untouched writer.world other
  have keeps := inv.keeps other step
  have keepsOff := inv.keeps_of_off other step
  refine ⟨(inv.world.perform worldEnabled).invariant world worldPerformed, refines.punctual, ?_⟩
  cases inv.phase with
  | idle started timeouts quiet hasState =>
      obtain ⟨silent, sameState⟩ := keepsOff (dueUs_of_unregistered hasState rfl)
      exact .idle started timeouts (by simp [quiet, silent]) (sameState.trans hasState)
  | waiting startUs count started timeouts quiet due after before =>
      have forward := (AlarmClock.Clock.now_of_run refines.run).1
      rcases AlarmClock.Clock.ringsOnce_of_run due before refines.run eventsUntouched with
        ⟨armed, ahead, silent⟩ | ⟨_, behind, once⟩
      · exact .waiting startUs count started timeouts (by simp [quiet, (keeps silent).1]) armed
          (after.trans forward) ahead
      · have fired : fires own writer.world action = true := by
          rw [← Bool.not_eq_false, fires_eq_false_iff worldEnabled, once]
          exact List.cons_ne_nil _ _
        obtain ⟨⟨state, hasState, unregistered, deadline⟩, sameTime⟩ := of_fires step fired
        refine .firing startUs count state started timeouts (by simp [fired]) hasState unregistered
          deadline (le_antisymm ?_ behind)
        exact sameTime.trans_le before
  | firing startUs count state started timeouts fired hasState unregistered deadline now =>
      obtain ⟨silent, sameState⟩ := keepsOff (dueUs_of_unregistered hasState unregistered)
      refine .firing startUs count state started timeouts (by simp [fired])
        (sameState.trans hasState) unregistered deadline ?_
      exact (nowUs_of_userCode refines (userCode fired)).trans now
  | gone count quiet noState timeouts =>
      obtain ⟨silent, sameState⟩ := keepsOff (dueUs_of_gone noState)
      exact .gone count (by simp [quiet, silent]) (sameState.trans noState) timeouts

theorem cancelIfSet_keeps {after : World Alarm} (inv : world.Invariant)
    (punctual : world.Punctual) (performed : cancelIfSet own world = .ok after) :
    after.Invariant ∧ after.Punctual := by
  obtain ⟨state, found, rest⟩ := bind_eq_ok.mp performed
  have hasState := World.get_eq_ok_iff.mp found
  split at rest
  next =>
    have afterInv := (inv.cancel hasState).invariant after rest
    exact ⟨afterInv, (inv.cancel_disarms hasState rest).1.punctual punctual afterInv⟩
  next =>
    obtain rfl := Except.ok.inj rest
    exact ⟨inv, punctual⟩

theorem destroy_keeps {after : World Alarm} (inv : world.Invariant)
    (punctual : world.Punctual) (performed : world.destroy own = .ok after) :
    after.Invariant ∧ after.Punctual ∧ after.alarms own = none := by
  obtain ⟨middle, unregistered, same⟩ := bind_eq_ok.mp performed
  obtain ⟨state, found, _⟩ := bind_eq_ok.mp unregistered
  have hasState := World.get_eq_ok_iff.mp found
  have afterInv := (inv.destroy hasState).invariant after performed
  refine ⟨afterInv, (inv.destroy_disarms hasState performed).1.punctual punctual afterInv, ?_⟩
  obtain rfl := Except.ok.inj same
  simp

omit [DecidableEq Alarm] in
theorem Phase.exists_schedule (phase : Phase own writer) :
    ∃ count, writer.timeoutsUs =
      (writer.startedUs.map fun startUs => schedule startUs count).getD [] := by
  cases phase with
  | idle started timeouts => exact ⟨0, by simp [started, timeouts]⟩
  | waiting startUs count started timeouts => exact ⟨count, by simp [started, timeouts]⟩
  | firing startUs count _ started timeouts => exact ⟨count, by simp [started, timeouts]⟩
  | gone count _ _ timeouts => exact ⟨count, timeouts⟩

omit [DecidableEq Alarm] in
theorem Phase.congr (phase : Phase own writer) (sameWorld : next.world = writer.world)
    (sameFiring : next.firing = writer.firing) (sameStart : next.startedUs = writer.startedUs)
    (sameTimeouts : next.timeoutsUs = writer.timeoutsUs) : Phase own next := by
  obtain ⟨_, _, _, _, _⟩ := next
  obtain ⟨_, _, _, _, _⟩ := writer
  simp only at sameWorld sameFiring sameStart sameTimeouts
  subst sameWorld sameFiring sameStart sameTimeouts
  cases phase with
  | idle started timeouts quiet hasState => exact .idle started timeouts quiet hasState
  | waiting startUs count started timeouts quiet due after before =>
      exact .waiting startUs count started timeouts quiet due after before
  | firing startUs count state started timeouts fired hasState unregistered deadline now =>
      exact .firing startUs count state started timeouts fired hasState unregistered deadline now
  | gone count quiet noState timeouts => exact .gone count quiet noState timeouts

theorem Invariant.startFillData (inv : Invariant own writer) {answers : Nat → SessionAnswer}
    (enabled : Enabled own writer (.startFillData answers))
    (performed : perform own v writer (.startFillData answers) = .ok next) :
    Invariant own next := by
  obtain ⟨_, _, unstarted⟩ := enabled
  obtain ⟨world, worldPerformed, same⟩ := bind_eq_ok.mp performed
  have arms := inv.world.set_arms worldPerformed
  obtain ⟨state, found, _⟩ := bind_eq_ok.mp worldPerformed
  have worldInv := (inv.world.set (World.get_eq_ok_iff.mp found) _).invariant world worldPerformed
  obtain rfl := Except.ok.inj same
  refine ⟨worldInv, (arms.refines inv.punctual).punctual, ?_⟩
  cases inv.phase with
  | idle _ timeouts quiet =>
      exact @Phase.of_arms _ _ writer _ writer.world.nowUs 0 arms rfl timeouts quiet (by simp)
  | waiting _ _ started => cases unstarted.symm.trans started
  | firing _ _ _ started => cases unstarted.symm.trans started
  | gone _ _ noState => cases noState.symm.trans (World.get_eq_ok_iff.mp found)

theorem Invariant.onTimeout (inv : Invariant own writer) {answers : Nat → SessionAnswer}
    (enabled : Enabled own writer (.onTimeout answers))
    (performed : perform own v writer (.onTimeout answers) = .ok next) :
    Invariant own next := by
  obtain ⟨world, worldPerformed, same⟩ := bind_eq_ok.mp performed
  cases inv.phase with
  | idle _ _ quiet => cases enabled.symm.trans quiet
  | waiting _ _ _ _ quiet => cases enabled.symm.trans quiet
  | gone _ quiet => cases enabled.symm.trans quiet
  | firing startUs count state started timeouts _ hasState unregistered deadline now =>
      have worldInv := (inv.world.update hasState _ _).invariant world worldPerformed
      have nonneg : 0 ≤ writer.world.nowUs := Int.natCast_nonneg _
      -- the deadline moves from zero, so neither of the early returns applies
      have arms : World.Arms writer.world world own (writer.world.nowUs + kWriteDelta) := by
        rcases inv.world.update_cases hasState worldPerformed with ⟨zero, _⟩ | ⟨_, close, _⟩ |
          ⟨_, _, arms⟩
        · simp only [kWriteDelta] at zero
          omega
        · simp only [Ns3Alarm.Within, deadline, kWriteDelta, kAlarmGranularity] at close
          omega
        · exact arms
      obtain rfl := Except.ok.inj same
      refine ⟨worldInv, (arms.refines inv.punctual).punctual, ?_⟩
      refine @Phase.of_arms _ _ writer _ startUs (count + 1) arms started ?_ rfl ?_
      · rw [schedule_succ, ← now, ← timeouts]
      · rw [now]
        push_cast
        rfl

theorem Invariant.perform (inv : Invariant own writer) {action : WriterAction Alarm}
    (step : Step own v writer action next) : Invariant own next := by
  obtain ⟨enabled, performed⟩ := step
  cases action with
  | startFillData answers => exact inv.startFillData enabled performed
  | onTimeout answers => exact inv.onTimeout enabled performed
  | destroy =>
      obtain ⟨first, firstCancel, rest⟩ := bind_eq_ok.mp performed
      obtain ⟨second, secondCancel, rest⟩ := bind_eq_ok.mp rest
      obtain ⟨world, destroyed, same⟩ := bind_eq_ok.mp rest
      obtain rfl := Except.ok.inj same
      obtain ⟨firstInv, firstPunctual⟩ := cancelIfSet_keeps inv.world inv.punctual firstCancel
      obtain ⟨secondInv, secondPunctual⟩ := cancelIfSet_keeps firstInv firstPunctual secondCancel
      obtain ⟨worldInv, punctual, noState⟩ := destroy_keeps secondInv secondPunctual destroyed
      obtain ⟨count, timeouts⟩ := inv.phase.exists_schedule
      exact ⟨worldInv, punctual, .gone count enabled.2.2 noState timeouts⟩
  | onCanWrite | writeBufferedData | closeWriteSide =>
      obtain rfl := Except.ok.inj performed
      exact ⟨inv.world, inv.punctual, inv.phase.congr rfl rfl rfl rfl⟩
  | world action => exact inv.world_step enabled performed

end Steps

section Runs

variable {own : Alarm} {v : UInt8} {writer last : WriterWorld Alarm} {world : World Alarm}
  {now : Nat} {before : List (WorldAction Alarm)} {stream : QuicStream}
  {actions more : List (WriterAction Alarm)}

theorem invariant_create (run : Run World.Step (.create now) before world)
    (fresh : world.Enabled (.construct own)) (stream : QuicStream) :
    Invariant own (create own world stream) := by
  have inv := World.invariant_of_run run
  obtain ⟨_, _, _, refines⟩ :=
    (World.invariant_create now).run_refines (World.punctual_create now) run
  have step : World.Step world (.construct own) (world.construct own) := ⟨fresh, rfl⟩
  exact ⟨(inv.perform fresh).invariant _ rfl, (inv.step_refines refines.punctual step).punctual,
    .idle rfl rfl rfl (World.put_alarms _ _ _)⟩

theorem invariant_of_run (first : Invariant own writer)
    (run : Run (Step own v) writer actions last) : Invariant own last :=
  run.invariant (Invariant own) first fun _ _ _ inv step => inv.perform step

theorem timeouts_of_gone (inv : Invariant own writer) (gone : writer.world.alarms own = none)
    (run : Run (Step own v) writer actions last) :
    last.world.alarms own = none ∧ last.timeoutsUs = writer.timeoutsUs := by
  induction run with
  | start => exact ⟨gone, rfl⟩
  | @snoc _ action middle last earlier step inductionHypothesis =>
      obtain ⟨middleGone, sameTimeouts⟩ := inductionHypothesis
      have middleInv := invariant_of_run inv earlier
      have quiet : middle.firing = false := by
        cases middleInv.phase with
        | idle _ _ quiet => exact quiet
        | waiting _ _ _ _ quiet => exact quiet
        | firing _ _ _ _ _ _ hasState => cases middleGone.symm.trans hasState
        | gone _ quiet => exact quiet
      obtain ⟨enabled, performed⟩ := step
      cases action with
      | startFillData answers => simp [Enabled, middleGone] at enabled
      | onTimeout answers => cases enabled.symm.trans quiet
      | destroy => simp [Enabled, middleGone] at enabled
      | onCanWrite | writeBufferedData | closeWriteSide =>
          obtain rfl := Except.ok.inj performed
          exact ⟨middleGone, sameTimeouts⟩
      | world action =>
          obtain ⟨world, worldPerformed, same⟩ := bind_eq_ok.mp performed
          obtain rfl := Except.ok.inj same
          have kept := middleInv.keeps_of_off enabled.2.1 ⟨enabled.1, worldPerformed⟩
            (dueUs_of_gone middleGone)
          exact ⟨kept.2.trans middleGone, sameTimeouts⟩

theorem Invariant.onTimeout_isOk (inv : Invariant own writer) (v : UInt8)
    (firing : writer.firing = true) (answers : Nat → SessionAnswer) :
    ∃ next, Step own v writer (.onTimeout answers) next := by
  cases inv.phase with
  | idle _ _ quiet => cases firing.symm.trans quiet
  | waiting _ _ _ _ quiet => cases firing.symm.trans quiet
  | gone _ quiet => cases firing.symm.trans quiet
  | firing startUs count state _ _ _ hasState unregistered deadline _ =>
      have nonneg : 0 ≤ writer.world.nowUs := Int.natCast_nonneg _
      have positive : writer.world.nowUs + kWriteDelta ≠ 0 := by
        simp only [kWriteDelta]
        omega
      have far : ¬state.Within (writer.world.nowUs + kWriteDelta) kAlarmGranularity := by
        simp only [Ns3Alarm.Within, deadline, kWriteDelta, kAlarmGranularity]
        omega
      have unset : ¬state.IsSet := not_not.mpr deadline
      obtain ⟨world, registered, _⟩ :=
        (inv.world.put_of_unregistered hasState unregistered
          { state with deadlineUs := writer.world.nowUs + kWriteDelta }
          unregistered).registerAlarm (World.put_alarms _ _ _) unregistered positive
          (writer.world.nowUs + kWriteDelta)
      have updated : writer.world.update own (writer.world.nowUs + kWriteDelta) kAlarmGranularity =
          .ok world := by
        simpa [World.update, World.get, hasState, positive, far, unset] using registered
      refine ⟨{ writer with
        world := world
        channel := writer.channel.writeData v answers
        firing := false
        timeoutsUs := writer.timeoutsUs ++ [writer.world.nowUs] }, firing, ?_⟩
      rw [WriterWorld.perform, updated]
      rfl

end Runs

end WriterWorld

end Ns3Quic.Session
