import Ns3Quic.Alarm.Delivery
import Mathlib.Logic.Function.Basic

/-!
# Alarm objects on top of the engine

An `Ns3Alarm` is a `QuicAlarm`, which knows its deadline, with an embedded
`BaseAlarm`, which knows whether the engine holds an entry for it and where.
The world puts all alarm objects next to the engine machine.  User code
creates, sets, cancels, updates and destroys alarms wherever it runs: at top
level, inside the callback of an alarm, or in the visitor.

A deadline of zero is `QuicTime::Zero()`, the deadline of an alarm that is
not set.
-/

namespace Ns3Quic.Alarm

open EventQueue OrderedMultimap TransitionSystem

structure Ns3Alarm where
  /-- `QuicAlarm::deadline_`. -/
  deadlineUs : Int
  /-- `BaseAlarm::token_`. -/
  token : Option AlarmRegToken
  /-- Whether `BaseAlarm::engine_` is not null. -/
  hasEngine : Bool
  /-- `BaseAlarm::registered_`. -/
  registered : Bool
  deriving DecidableEq

namespace Ns3Alarm

def create : Ns3Alarm := ⟨0, none, false, false⟩

def IsSet (alarm : Ns3Alarm) : Prop := alarm.deadlineUs ≠ 0

instance (alarm : Ns3Alarm) : Decidable alarm.IsSet := inferInstanceAs (Decidable (_ ≠ _))

/-- The test of `QuicAlarm::Update`: the deadline hardly moves. -/
def Within (alarm : Ns3Alarm) (newDeadlineUs granularityUs : Int) : Prop :=
  ((newDeadlineUs - alarm.deadlineUs).natAbs : Int) < granularityUs

instance (alarm : Ns3Alarm) (newDeadlineUs granularityUs : Int) :
    Decidable (alarm.Within newDeadlineUs granularityUs) :=
  inferInstanceAs (Decidable (_ < _))

def onRegistration (alarm : Ns3Alarm) (token : AlarmRegToken) : Ns3Alarm :=
  { alarm with token := some token, hasEngine := true, registered := true }

def onUnregistration (alarm : Ns3Alarm) : Ns3Alarm :=
  { alarm with registered := false }

def onShutdown (alarm : Ns3Alarm) : Ns3Alarm :=
  { alarm with registered := false, hasEngine := false }

/-- `Ns3AlarmImpl::OnAlarm` up to the call of the delegate. -/
def onAlarm (alarm : Ns3Alarm) : Ns3Alarm :=
  let alarm := { alarm with registered := false }
  if alarm.IsSet then { alarm with deadlineUs := 0 } else alarm

end Ns3Alarm

inductive AlarmFault where
  | engine (fault : EngineFault)
  /-- A member function of an alarm that does not exist is called. -/
  | noAlarm
  /-- `BaseAlarm::engine_` is dereferenced and null. -/
  | noEngine
  /-- `QUICHE_DCHECK(!IsSet())` in `Set`. -/
  | alreadySet
  /-- `QUICHE_DCHECK(new_deadline.IsInitialized())` in `Set`. -/
  | noDeadline
  /-- `QUICHE_DCHECK_EQ(false, registered_)` in `OnRegistration`. -/
  | alreadyRegistered
  deriving DecidableEq

structure World (Alarm : Type) where
  machine : Machine Alarm
  alarms : Alarm → Option Ns3Alarm

inductive WorldAction (Alarm : Type) where
  | construct (alarm : Alarm)
  | set (alarm : Alarm) (newDeadlineUs : Int)
  | cancel (alarm : Alarm)
  | update (alarm : Alarm) (newDeadlineUs granularityUs : Int)
  | destroy (alarm : Alarm)
  | shutdown
  | advance (delay : Nat)
  | timerExpires
  | onAlarm
  | onAlarmReturns
  | endOfTimeout

namespace World

variable {Alarm : Type}

def create (now : Nat) : World Alarm := ⟨.create now, fun _ => none⟩

def get (world : World Alarm) (alarm : Alarm) : Except AlarmFault Ns3Alarm :=
  match world.alarms alarm with
  | none => .error .noAlarm
  | some state => .ok state

variable [DecidableEq Alarm]

def put (world : World Alarm) (alarm : Alarm) (state : Ns3Alarm) : World Alarm :=
  { world with alarms := Function.update world.alarms alarm (some state) }

@[simp]
theorem put_alarms (world : World Alarm) (alarm : Alarm) (state : Ns3Alarm) :
    (world.put alarm state).alarms alarm = some state := by
  simp [put]

theorem put_alarms_of_ne (world : World Alarm) {alarm other : Alarm} {state : Ns3Alarm}
    (different : other ≠ alarm) :
    (world.put alarm state).alarms other = world.alarms other := by
  simp [put, different]

def registerAlarm (world : World Alarm) (timeoutUs : Int) (alarm : Alarm) :
    Except AlarmFault (World Alarm) := do
  let (machine, token) ← (world.machine.register timeoutUs alarm).mapError .engine
  let world := { world with machine := machine }
  match token with
  | none => pure world
  | some token =>
      let state ← world.get alarm
      if state.registered then
        .error .alreadyRegistered
      else
        pure (world.put alarm (state.onRegistration token))

/-- `BaseAlarm::UnregisterIfRegistered`.  The callback goes to the alarm that
the engine finds in the entry. -/
def unregisterIfRegistered (world : World Alarm) (alarm : Alarm) :
    Except AlarmFault (World Alarm) := do
  let state ← world.get alarm
  if !state.registered then
    pure world
  else if !state.hasEngine then
    .error .noEngine
  else
    match state.token with
    | none => .error (.engine .staleToken)
    | some token =>
        let (machine, cb) ← (world.machine.unregister token).mapError .engine
        let world := { world with machine := machine }
        let state ← world.get cb
        pure (world.put cb state.onUnregistration)

def reregisterAlarm (world : World Alarm) (alarm : Alarm) (timeoutUs : Int) :
    Except AlarmFault (World Alarm) := do
  let state ← world.get alarm
  if !state.hasEngine then
    .error .noEngine
  else
    match state.token with
    | none => .error (.engine .staleToken)
    | some token =>
        let (machine, newToken) ←
          (world.machine.reregister token timeoutUs).mapError .engine
        let world := { world with machine := machine }
        pure (world.put alarm { state with token := some newToken })

def construct (world : World Alarm) (alarm : Alarm) : World Alarm :=
  world.put alarm .create

/-- `QuicAlarm::Set`, with `Ns3Alarm::SetImpl`. -/
def set (world : World Alarm) (alarm : Alarm) (newDeadlineUs : Int) :
    Except AlarmFault (World Alarm) := do
  let state ← world.get alarm
  if state.IsSet then
    .error .alreadySet
  else if newDeadlineUs = 0 then
    .error .noDeadline
  else
    (world.put alarm { state with deadlineUs := newDeadlineUs }).registerAlarm
      newDeadlineUs alarm

/-- `QuicAlarm::Cancel`, with `Ns3Alarm::CancelImpl`. -/
def cancel (world : World Alarm) (alarm : Alarm) : Except AlarmFault (World Alarm) := do
  let state ← world.get alarm
  if ¬state.IsSet then
    pure world
  else
    (world.put alarm { state with deadlineUs := 0 }).unregisterIfRegistered alarm

/-- `Ns3Alarm::UpdateImpl` for an alarm whose deadline is `timeoutUs`. -/
def updateImpl (world : World Alarm) (alarm : Alarm) (timeoutUs : Int) :
    Except AlarmFault (World Alarm) := do
  let state ← world.get alarm
  if state.registered then
    world.reregisterAlarm alarm timeoutUs
  else
    world.registerAlarm timeoutUs alarm

def update (world : World Alarm) (alarm : Alarm) (newDeadlineUs granularityUs : Int) :
    Except AlarmFault (World Alarm) :=
  if newDeadlineUs = 0 then
    world.cancel alarm
  else do
    let state ← world.get alarm
    if state.Within newDeadlineUs granularityUs then
      pure world
    else
      let moved := world.put alarm { state with deadlineUs := newDeadlineUs }
      if state.IsSet then
        moved.updateImpl alarm newDeadlineUs
      else
        moved.registerAlarm newDeadlineUs alarm

def destroy (world : World Alarm) (alarm : Alarm) : Except AlarmFault (World Alarm) := do
  let world ← world.unregisterIfRegistered alarm
  pure { world with alarms := Function.update world.alarms alarm none }

def shutdown (world : World Alarm) : World Alarm :=
  let (machine, cbs) := world.machine.shutdown
  { machine := machine
    alarms := cbs.foldl (fun alarms cb =>
      Function.update alarms cb ((alarms cb).map Ns3Alarm.onShutdown)) world.alarms }

/-- `OnTimeout` calls the next alarm, which fires. -/
def onAlarm (world : World Alarm) : Except AlarmFault (World Alarm) :=
  match world.machine.waiting with
  | [] => .ok world
  | node :: _ => do
      let world := { world with machine := world.machine.onAlarm }
      let state ← world.get node.value
      pure (world.put node.value state.onAlarm)

def ofMachine (world : World Alarm) (machine : Except EngineFault (Machine Alarm)) :
    Except AlarmFault (World Alarm) :=
  match machine with
  | .error fault => .error (.engine fault)
  | .ok machine => .ok { world with machine := machine }

/-- `Ns3AlarmImpl::OnAlarm` always returns zero. -/
def perform (world : World Alarm) : WorldAction Alarm → Except AlarmFault (World Alarm)
  | .construct alarm => .ok (world.construct alarm)
  | .set alarm newDeadlineUs => world.set alarm newDeadlineUs
  | .cancel alarm => world.cancel alarm
  | .update alarm newDeadlineUs granularityUs =>
      world.update alarm newDeadlineUs granularityUs
  | .destroy alarm => world.destroy alarm
  | .shutdown => .ok world.shutdown
  | .advance delay => world.ofMachine (world.machine.perform (.advance delay))
  | .timerExpires => world.ofMachine (world.machine.perform .timerExpires)
  | .onAlarm => world.onAlarm
  | .onAlarmReturns => world.ofMachine (world.machine.perform (.onAlarmReturns 0))
  | .endOfTimeout => world.ofMachine (world.machine.perform .endOfTimeout)

/-- User code runs at top level, inside a callback, or in the visitor that
`OnTimeout` calls after the last callback. -/
def UserCodeRuns (world : World Alarm) : Prop :=
  (world.machine.frame.all fun frame => frame.current.isSome || frame.cbs.isEmpty) = true

instance (world : World Alarm) : Decidable world.UserCodeRuns :=
  inferInstanceAs (Decidable (_ = true))

def Enabled (world : World Alarm) : WorldAction Alarm → Prop
  | .construct alarm => world.UserCodeRuns ∧ world.alarms alarm = none
  | .set alarm _ | .cancel alarm | .update alarm _ _ | .destroy alarm =>
      world.UserCodeRuns ∧ (world.alarms alarm).isSome = true
  | .shutdown => world.UserCodeRuns
  | .advance delay => world.machine.Enabled (.advance delay)
  | .timerExpires => world.machine.Enabled .timerExpires
  | .onAlarm => world.machine.Enabled .onAlarm
  | .onAlarmReturns => world.machine.Enabled (.onAlarmReturns 0)
  | .endOfTimeout => world.machine.Enabled .endOfTimeout

def Step : World Alarm → WorldAction Alarm → World Alarm → Prop :=
  Guarded Enabled perform

instance (world : World Alarm) (action : WorldAction Alarm) :
    Decidable (world.Enabled action) :=
  match action with
  | .construct _ | .set _ _ | .cancel _ | .update _ _ _ | .destroy _ =>
      inferInstanceAs (Decidable (_ ∧ _))
  | .shutdown => inferInstanceAs (Decidable world.UserCodeRuns)
  | .advance delay => inferInstanceAs (Decidable (world.machine.Enabled (.advance delay)))
  | .timerExpires => inferInstanceAs (Decidable (world.machine.Enabled .timerExpires))
  | .onAlarm => inferInstanceAs (Decidable (world.machine.Enabled .onAlarm))
  | .onAlarmReturns =>
      inferInstanceAs (Decidable (world.machine.Enabled (.onAlarmReturns 0)))
  | .endOfTimeout => inferInstanceAs (Decidable (world.machine.Enabled .endOfTimeout))

end World

end Ns3Quic.Alarm
